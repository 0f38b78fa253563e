import SyncFacade.ClassDeclaration
import SyncFacade.Lineage
import SyncFacade.Text.Pieces

/-! Declared classes: their attributes in order, their ancestors, and the paths at which they can be
found again. A class knows its bases by number, so that classes of one name stay apart. -/
namespace SyncFacade

/-- All declared classes by number, those that can be found under a name of a module, and those that were
made attributes of a function. -/
structure ClassTable where
  classes : Array DeclaredClass := #[]
  exposed : OrderedMap (String × String) Nat := {}
  onFunctions : OrderedMap ((Nat × Nat) × String) Nat := {}

namespace ClassTable

def find? (t : ClassTable) (number : Nat) : Option DeclaredClass := t.classes[number]?

def lineage (t : ClassTable) : ClassRef → List ClassRef
  | .base b => b.lineage.map .base
  | .declared n => ((t.find? n).map DeclaredClass.lineage).getD []

/-- The bases that count: what is a protocol need not be marked as generic, and what extends nothing
else extends the class of all objects. -/
def effectiveBases (bases : List ClassRef) : List ClassRef :=
  let bases :=
    if bases.any fun b => b = .base .protocol || b = .base .protocolExtension then
      bases.filter (· ≠ .base .generic)
    else bases
  if bases.isEmpty then [.base .object] else bases

def own? (t : ClassTable) (c : ClassRef) (name : String) : Option Attribute :=
  match c with
  | .base b => b.own? name
  | .declared n => (t.find? n).bind (·.own? name)

/-- The attribute found in a class or its nearest ancestor. -/
def attribute? (t : ClassTable) (c : ClassRef) (name : String) : Option Attribute :=
  (t.lineage c).findSome? (t.own? · name)

/-- What is found at a path of names in a module, if the path can go on there. -/
inductive Place where
  | cls (number : Nat)
  | function (origin : Nat × Nat)

def within? (t : ClassTable) (place : Place) (name : String) : Option Place :=
  match place with
  | .cls number =>
    match t.attribute? (.declared number) name with
    | some (.inner number) => some (.cls number)
    | some a => a.origin?.map .function
    | none => none
  | .function origin => (t.onFunctions.find? (origin, name)).map .cls

def placeAt? (t : ClassTable) (module : String) : List String → Option Place
  | [] => none
  | name :: path => do path.foldlM t.within? (.cls (← t.exposed.find? (module, name)))

def reach? (t : ClassTable) (module : String) (path : List String) : Option Nat :=
  match t.placeAt? module path with
  | some (.cls number) => some number
  | _ => none

/-- A part of the qualified names of what is declared inside a function, which no path reaches. -/
def localMarker : List Char := "<locals>".toList

/-- The path at which a class of a qualified name is to be found, the last name apart. -/
def placeOf? (qualifiedName : String) : Option (List String × String) :=
  if Text.occursIn localMarker qualifiedName.toList then none
  else
    let path := Text.components qualifiedName
    path.getLast?.map fun name => (path.dropLast, name)

/-- Make a class reachable under a qualified name, if there is something around it or nothing is needed. -/
def expose (t : ClassTable) (number : Nat) (module qualifiedName : String) : ClassTable :=
  match placeOf? qualifiedName with
  | none => t
  | some ([], name) => { t with exposed := t.exposed.put (module, name) number }
  | some (outer, name) =>
    match t.placeAt? module outer with
    | none => t
    | some (.cls n) => { t with
        classes := t.classes.modify n fun c =>
          { c with attributes := c.attributes.put name (.inner number) } }
    | some (.function origin) => { t with onFunctions := t.onFunctions.put (origin, name) number }

/-- Declare a class. Its number is the count of the classes before it. -/
def declare (t : ClassTable) (d : ClassDeclaration) : ClassTable :=
  let number := t.classes.size
  let bases := effectiveBases d.bases
  let body := d.run number
  let c : DeclaredClass := {
    name := d.name
    module := d.module
    qualifiedName := d.qualifiedName
    bases
    lineage := .declared number :: Lineage.merge (bases.map t.lineage ++ [bases])
    attributes := body.attributes }
  let c := { c with
    module := (c.text? "__module__").getD c.module
    qualifiedName := (c.text? "__qualname__").getD c.qualifiedName }
  { t with classes := t.classes.push c ++ body.classes }

/-- Declare a class and make it reachable under the qualified name that its body leaves it. -/
def introduce (t : ClassTable) (d : ClassDeclaration) : ClassTable :=
  let number := t.classes.size
  let t := t.declare d
  match t.find? number with
  | some c => t.expose number c.module c.qualifiedName
  | none => t

/-- The class of a number, as annotations know it. -/
def named? (t : ClassTable) (number : Nat) : Option NamedClass :=
  (t.find? number).map fun c =>
    { name := c.qualifiedName, module := c.module, declared := some number }

end ClassTable
end SyncFacade
