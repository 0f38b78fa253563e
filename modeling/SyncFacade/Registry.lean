import SyncFacade.OrderedMap

/-! The registrations of classes and interfaces. All targets share one registry, which keeps a single
entry for each class; a class that is registered again keeps its place. By name, the entry whose class
came last wins. -/
namespace SyncFacade

/-- A class registered for a wrapper, and the name of the interface to make from it. -/
structure ClassEntry where
  target : String
  name : String
  interface : Option String := none
deriving DecidableEq

/-- An interface registered for a replacement. -/
structure InterfaceEntry where
  target : String
  name : String
deriving DecidableEq

/-- The registrations of all targets, by class. -/
structure Registry (κ : Type) where
  classes : OrderedMap κ ClassEntry := {}
  interfaces : OrderedMap κ InterfaceEntry := {}

namespace Registry

variable {κ : Type} [DecidableEq κ]

/-- The name of what is generated for a class: the one asked for, or one made from the class's own. An
empty name counts as none. -/
def generatedName (className : String) (name : Option String) : String :=
  (name.filter (· != "")).getD (className ++ "Wrapper")

def wrapClass (r : Registry κ) (target : String) (key : κ) (className : String) (name : Option String)
    (interface : Option String) : Registry κ :=
  { r with classes := r.classes.put key { target, name := generatedName className name, interface } }

def wrapInterface (r : Registry κ) (target : String) (key : κ) (className : String)
    (name : Option String) : Registry κ :=
  { r with interfaces := r.interfaces.put key { target, name := generatedName className name } }

def classesOf (r : Registry κ) (target : String) : OrderedMap String (κ × Option String) :=
  .ofList <| (r.classes.entries.filter (·.2.target = target)).map fun (key, e) =>
    (e.name, key, e.interface)

/-- The interfaces registered for a target, by the name of the replacement. -/
def interfacesOf (r : Registry κ) (target : String) : OrderedMap String κ :=
  .ofList <| (r.interfaces.entries.filter (·.2.target = target)).map fun (key, e) => (e.name, key)

/-- All that is registered for a target, by generated name. An interface replaces a class of the same
name. -/
def itemsOf (r : Registry κ) (target : String) : OrderedMap String κ :=
  (OrderedMap.ofList ((r.classesOf target).entries.map fun (name, key, _) => (name, key))).putAll
    (r.interfacesOf target).entries

end Registry
end SyncFacade
