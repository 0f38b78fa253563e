import SyncFacade.ClassTable.Description
import SyncFacade.GeneratedModule
import SyncFacade.TypeHint.Stock
import SyncFacade.Workspace.Error

/-! Modules that can be imported: their statements, and what running these leaves behind. A statement may
run only while types are checked, or only while they are not. -/
namespace SyncFacade

inductive Occasion where
  | always
  | typeChecking
  | otherwise
deriving DecidableEq

def Occasion.applies (o : Occasion) (typeChecking : Bool) : Bool :=
  match o with
  | .always => true
  | .typeChecking => typeChecking
  | .otherwise => !typeChecking

/-- The registration of a class for a wrapper through the target in a variable. -/
structure WrapperMark where
  global : String
  name : Option String := none
  interface : Option String := none

/-- The registration of a class for a replacement through the target in a variable. -/
structure InterfaceMark where
  global : String
  name : Option String := none

/-- What a statement does. A class is declared from what its names stand for, with annotations from the stock;
a name that stands for nothing of the kind that is needed is its error. -/
inductive Statement where
  | target (global : String) (module scope : Option String)
  | cls (name : String) (declare : Names → StateT Stock (Except String) ClassDeclaration)
      (wrapper : Option WrapperMark) (interface : Option InterfaceMark)
  | importFrom (module name global : String)
  | set (global : String) (v : Value)
  | sameAs (global source : String)
  | raise (kind message : String)

/-- A module: its statements, and whether other modules lie below it. -/
structure SourceModule where
  name : String
  isPackage : Bool := false
  body : List (Occasion × Statement) := []

/-- What a variable of a module holds. Targets and classes are known by number. -/
inductive Object where
  | target (number : Nat)
  | cls (number : Nat)
  | module (name : String)
  | value (v : Value)

abbrev Globals := OrderedMap String Object

/-- The modules that are imported so far, with their variables, and what they have made and registered. -/
structure Workspace where
  loaded : OrderedMap String Globals := {}
  classes : ClassTable := {}
  targets : Array Target := #[]
  registry : Registry Nat := {}
  stock : Stock := {}
  typeChecking : Bool := false

namespace Workspace

def globals (w : Workspace) (module : String) : Globals := (w.loaded.find? module).getD {}

def get? (w : Workspace) (module global : String) : Option Object := (w.globals module).find? global

def assign (w : Workspace) (module global : String) (o : Object) : Workspace :=
  { w with loaded := w.loaded.put module ((w.globals module).put global o) }

/-- The target in a variable of a module. -/
def target? (w : Workspace) (module global : String) : Except ImportFailure Target :=
  match w.get? module global with
  | some (.target number) =>
    match w.targets[number]? with
    | some t => .ok t
    | none => .error (.undefined global)
  | _ => .error (.undefined global)

/-- The class table, in which exactly the classes in variables of modules can be found again. -/
def reachableClasses (w : Workspace) : ClassTable :=
  { w.classes with
    exposed := ⟨w.loaded.entries.flatMap fun (module, globals) =>
      globals.entries.filterMap fun (global, o) => match o with
        | .cls number => some ((module, global), number)
        | _ => none⟩ }

/-- What the content of a variable means in an annotation. -/
def meaning (w : Workspace) : Object → Option TypeHint
  | .cls number => (w.classes.named? number).map TypeHint.cls
  | .value v => some (TypeHint.ofValue v)
  | .module name => some (.named { name })
  | .target _ => some (.value (.object "<suspendwrap.module.Module object>"))

/-- The meaning of texts in a module: that of its variables. -/
def names (w : Workspace) (module : String) : Names := fun s => (w.get? module s).bind w.meaning

def catalogue (w : Workspace) : Catalogue Nat where
  describe := w.reachableClasses.describe fun c _ => w.names c.home
  type number := w.classes.type (.declared number)

end Workspace
end SyncFacade
