import SyncFacade.Method

/-! Classes as a description records them, and what is generated from them: interfaces, wrappers, and
the bindings that relate the two. Descriptions agree when they are equal without documentation and
without the defaults of parameters. -/
namespace SyncFacade

/-- A class to wrap: its own public methods and the interfaces among its bases. -/
structure ClassInfo where
  name : String
  module : Option String := none
  methods : List Method := []
  supertypes : List TypeRef := []
  doc : Option String := none
deriving DecidableEq

namespace ClassInfo

def type (c : ClassInfo) : TypeRef := { name := c.name, module := c.module }

def bare (c : ClassInfo) : ClassInfo := { c with methods := c.methods.map Method.bare, doc := none }

end ClassInfo

/-- An interface made from a wrapped class, which the wrapper implements as well. -/
structure InterfaceBinding where
  type : TypeRef
  methods : List Method := []
deriving DecidableEq

def InterfaceBinding.bare (b : InterfaceBinding) : InterfaceBinding :=
  { b with methods := b.methods.map Method.bare }

/-- An interface that is replaced by the one generated for it. -/
structure Substitution where
  replaced : TypeRef
  generated : TypeRef
deriving DecidableEq

/-- A generated interface: method signatures without bodies. -/
structure Interface where
  name : String
  methods : List Method := []
  module : Option String := none
  supertypes : List TypeRef := []
  doc : Option String := none
deriving DecidableEq

namespace Interface

def type (i : Interface) : TypeRef := { name := i.name, module := i.module }

def bare (i : Interface) : Interface := { i with methods := i.methods.map Method.bare, doc := none }

end Interface

/-- The field of a wrapper that holds the wrapped instance. -/
structure DelegateField where
  name : String
  type : TypeRef
  isPrivate : Bool := true
deriving DecidableEq

/-- A constructor that stores each assigned parameter in the field of the same name. -/
structure Constructor where
  parameters : List Parameter := []
  assigns : List String := []
deriving DecidableEq

def Constructor.bare (c : Constructor) : Constructor :=
  { c with parameters := c.parameters.map Parameter.bare }

/-- A generated wrapper: a class that delegates to an instance of the wrapped one. -/
structure Wrapper where
  name : String
  supertypes : List TypeRef := []
  methods : List Method := []
  delegate : DelegateField
  constructor : Constructor
  module : Option String := none
  doc : Option String := none
deriving DecidableEq

namespace Wrapper

def type (w : Wrapper) : TypeRef := { name := w.name, module := w.module }

def bare (w : Wrapper) : Wrapper :=
  { w with methods := w.methods.map Method.bare, constructor := w.constructor.bare, doc := none }

end Wrapper
end SyncFacade
