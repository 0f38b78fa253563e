import SyncFacade.BaseClass.Attributes
import SyncFacade.Function
import SyncFacade.OrderedMap
import SyncFacade.Value.TypeDoc

/-! Classes as they are declared, and what their bodies make: attributes in the order in which their names
came first, and classes inside the class. -/
namespace SyncFacade

/-- A class: one that is always there, or a declared one by its number. -/
inductive ClassRef where
  | base (b : BaseClass)
  | declared (number : Nat)
deriving DecidableEq

/-- What stands under a name in a class. A function is told apart from others by its origin: the number
of the class and the place of the member that declared it. Of what classes have without declaring it only
the documentation is known. -/
inductive Attribute where
  | method (origin : Nat × Nat) (f : Function)
  | static (origin : Nat × Nat) (f : Function)
  | classMethod (f : Function)
  | property (f : Function)
  | value (v : Value)
  | inner (number : Nat)
  | known (doc : Option String)

/-- The documentation of an attribute that is no class. -/
def Attribute.doc : Attribute → Option String
  | .method _ f => f.doc
  | .static _ f => f.doc
  | .classMethod f => f.doc
  | .property f => f.doc
  | .value v => v.typeDoc
  | .inner _ => none
  | .known doc => doc

/-- The origin of the function that is reached through an attribute of a class. -/
def Attribute.origin? : Attribute → Option (Nat × Nat)
  | .method origin _ => some origin
  | .static origin _ => some origin
  | _ => none

def Attribute.text? : Attribute → Option String
  | .value (.str s) => some s
  | _ => none

def Attribute.truthy : Attribute → Bool
  | .value v => v.truthy
  | _ => true

inductive Role where
  | method
  | static
  | classMethod
  | property
deriving DecidableEq

def Role.attribute (role : Role) (origin : Nat × Nat) (f : Function) : Attribute :=
  match role with
  | .method => .method origin f
  | .static => .static origin f
  | .classMethod => .classMethod f
  | .property => .property f

/-- One line in the body of a class. -/
inductive Member where
  | function (name : String) (role : Role) (f : Function)
  | sameAs (name target : String)
  | value (name : String) (v : Value)
  | inner (name : String)
  | delete (name : String)

structure ClassDeclaration where
  name : String
  module : String
  qualifiedName : String
  doc : Option String := none
  bases : List ClassRef := []
  members : List Member := []

/-- A class that was declared, with its lineage: itself and its ancestors in the order of search. Its
functions know it by `home` and `path`, the module and the qualified name of the declaration; its body can
give it others. -/
structure DeclaredClass where
  name : String
  module : String
  qualifiedName : String
  home : String := module
  path : String := qualifiedName
  bases : List ClassRef
  lineage : List ClassRef
  attributes : OrderedMap String Attribute := {}

def DeclaredClass.type (c : DeclaredClass) : TypeRef := { name := c.qualifiedName, module := c.module }

/-- The text under a name in a class itself. -/
def DeclaredClass.text? (c : DeclaredClass) (name : String) : Option String :=
  (c.attributes.find? name).bind Attribute.text?

def docName : String := "__doc__"

/-- The kind of a class with a lineage: that of its ancestors which tells most. -/
def ClassKind.ofLineage (lineage : List ClassRef) : ClassKind :=
  lineage.foldl (fun kind c => match c with
    | .base b => kind.join b.kind
    | .declared _ => kind) .plain

def variablesName : String := "__parameters__"

/-- The attribute with the names that an abstract class leaves open. -/
def abstractNamesName : String := "__abstractmethods__"

/-- The attribute with what an abstract class knows of those that extend it. -/
def registryName : String := "_abc_impl"

/-- The attribute with the names that a protocol asks for. -/
def protocolNamesName : String := "__protocol_attrs__"

def weakReferencesName : String := "__weakref__"

/-- What classes of a kind have of their own, whatever their bodies say. -/
def ClassKind.imposed? (kind : ClassKind) (name : String) : Option Attribute :=
  if kind = .plain then none
  else if name = abstractNamesName then some (.value (.frozenSet []))
  else if name = registryName then some (.known "Internal state held by ABC machinery.")
  else none

namespace DeclaredClass

def extendsDirectly (c : DeclaredClass) (bs : List BaseClass) : Bool := bs.any (c.bases.contains <| .base ·)

def isGeneric (c : DeclaredClass) : Bool := c.lineage.contains (.base .generic)

def protocols : List BaseClass := [.protocol, .protocolExtension]

def knowsProtocols (c : DeclaredClass) : Bool := protocols.any (c.lineage.contains <| .base ·)

/-- The attribute that the body of a class leaves under a name. -/
def made? (c : DeclaredClass) (name : String) : Option Attribute := c.attributes.find? name

/-- Whether a class is marked as a protocol. Its body can say so, and else only its bases. -/
def isMarked (c : DeclaredClass) : Bool :=
  (c.made? BaseClass.protocolMark).any Attribute.truthy || c.extendsDirectly protocols

/-- What a class has of its own under a name, whatever its body says. -/
def imposed? (c : DeclaredClass) (name : String) : Option Attribute :=
  let kind := ClassKind.ofLineage c.lineage
  if name = variablesName && c.isGeneric then some (.value (.tuple []))
  else if name = BaseClass.protocolMark && c.knowsProtocols &&
      !(c.made? name).any Attribute.truthy then some (.value (.bool c.isMarked))
  else if name = protocolNamesName && kind = .protocolExtension && c.isMarked then some (.value (.set []))
  else kind.imposed? name

/-- What a class has of its own under a name that its body does not define. The first declared class of a
lineage has what instances need. -/
def implied? (c : DeclaredClass) (name : String) : Option Attribute :=
  let isBase : ClassRef → Bool
    | .base _ => true
    | .declared _ => false
  if name = weakReferencesName && (c.lineage.drop 1).all isBase then
    some (.known "list of weak references to the object (if defined)")
  else if name = BaseClass.subclassHook && c.knowsProtocols then some (.known none)
  else none

def own? (c : DeclaredClass) (name : String) : Option Attribute :=
  (c.imposed? name).or ((c.made? name).or (c.implied? name))

end DeclaredClass

def BaseClass.own? (b : BaseClass) (name : String) : Option Attribute :=
  (b.kind.imposed? name).or <| ((b.marks.lookup name).map fun m => .value (.bool m)).or <|
    ((b.attributes.lookup name).map .known).or <|
      if b = .protocolExtension && name = protocolNamesName then some (.value (.set [])) else none

/-- What the body of a class has made: its attributes, and the classes declared inside it. -/
structure ClassBody where
  attributes : OrderedMap String Attribute := {}
  classes : List DeclaredClass := []

/-- A class declared in the body of another one, under a name and a number of its own. -/
def ClassDeclaration.inner (d : ClassDeclaration) (name : String) (number : Nat) : DeclaredClass where
  name
  module := d.module
  qualifiedName := d.qualifiedName ++ "." ++ name
  bases := [.base .object]
  lineage := [.declared number, .base .object]

/-- Run one line in the body of the class of the given number. Classes inside it have the numbers behind
its own. -/
def ClassBody.run (d : ClassDeclaration) (number place : Nat) (b : ClassBody) : Member → ClassBody
  | .function name role f => { b with attributes := b.attributes.put name (role.attribute (number, place) f) }
  | .sameAs name target =>
    match b.attributes.find? target with
    | some a => { b with attributes := b.attributes.put name a }
    | none => b
  | .value name v => { b with attributes := b.attributes.put name (.value v) }
  | .inner name =>
    let inner := number + 1 + b.classes.length
    { attributes := b.attributes.put name (.inner inner)
      classes := b.classes ++ [d.inner name inner] }
  | .delete name => { b with attributes := b.attributes.erase name }

/-- A few functions belong to the class and not to its instances without being declared so. -/
def Attribute.adjusted (name : String) : Attribute → Attribute
  | .method origin f =>
    if name = "__new__" then .static origin f
    else if name = "__init_subclass__" || name = "__class_getitem__" then .classMethod f
    else .method origin f
  | a => a

/-- What the body of a class makes. Its documentation comes before its members, which can change it. -/
def ClassDeclaration.run (d : ClassDeclaration) (number : Nat) : ClassBody :=
  let first : ClassBody := { attributes := ⟨d.doc.toList.map fun s => (docName, .value (.str s))⟩ }
  let b := d.members.zipIdx.foldl (fun b (member, place) => b.run d number place member) first
  { b with attributes := ⟨b.attributes.entries.map fun (name, a) => (name, a.adjusted name)⟩ }

end SyncFacade
