import SyncFacade.Class
import SyncFacade.ClassTable

/-! Descriptions of declared classes: which of them are interfaces, what documents them and their
functions, and which functions a description shows. -/
namespace SyncFacade

/-- The attribute with the annotations of a class, which is there as soon as it is asked for. -/
def annotationsName : String := "__annotations__"

namespace ClassTable

def kind (t : ClassTable) (c : ClassRef) : ClassKind := .ofLineage (t.lineage c)

def isProtocol (t : ClassTable) (c : ClassRef) : Bool :=
  (t.attribute? c BaseClass.protocolMark).any Attribute.truthy

/-- Whether a class counts as an interface: it is abstract or a protocol, and does not only mark others. -/
def isInterface (t : ClassTable) (c : ClassRef) : Bool :=
  match c with
  | .base b => !b.isMarker && b.kind ≠ .plain
  | .declared _ => t.isProtocol c || t.kind c ≠ .plain

def type (t : ClassTable) : ClassRef → TypeRef
  | .base b => { name := b.name, module := b.module }
  | .declared n => ((t.find? n).map DeclaredClass.type).getD { name := "" }

/-- What documents a class itself, if there is anything. It need not be a text. -/
def ownDoc (t : ClassTable) : ClassRef → Option Attribute
  | .base b => b.doc.map fun s => .value (.str s)
  | .declared n => ((t.find? n).bind (·.attributes.find? docName)).filter fun a => match a with
    | .value .null => false
    | _ => true

/-- The documentation of a class: its own, or that of its nearest ancestor that has one. The class of all
objects hands none down. -/
def doc (t : ClassTable) (c : ClassRef) : Option String :=
  (((t.lineage c).filter (· ≠ .base .object)).findSome? t.ownDoc).bind Attribute.text?

/-- What a class shows of itself alone under a name, if that is not what its ancestors have there. -/
def shown? (t : ClassTable) (c : ClassRef) (name : String) : Option Attribute :=
  if name = docName then t.ownDoc c
  else if name = annotationsName then
    (t.own? c name).or (if c = .base .object then none else some (.value (.dict [])))
  else if name = abstractNamesName then t.own? c name
  else t.attribute? c name

/-- The documentation of what is found under a name from a class on, if there is any. It need not be a
text. -/
def attributeDoc (t : ClassTable) (name : String) (c : ClassRef) : Option (Option String) :=
  match t.shown? c name with
  | some (.inner n) => (t.ownDoc (.declared n)).map Attribute.text?
  | some a => a.doc.map some
  | none => ((t.kind c).doc name).map some

/-- The documentation that a function without its own takes over: that of its name in the nearest class
of the lineage that documents it. The function has to be what is found under its qualified name. -/
def inheritedDoc (t : ClassTable) (module qualifiedName : String) (origin : Nat × Nat) (name : String) :
    Option String := do
  let c ← t.reach? module (Text.components (qualifiedName ++ "." ++ name)).dropLast
  let found ← t.shown? (.declared c) name
  if found.origin? = some origin && !reservedNames.contains name then
    ((t.lineage (.declared c)).findSome? (t.attributeDoc name)).join
  else none

def describeFunction (t : ClassTable) (names : DeclaredClass → Function → Names) (c : DeclaredClass)
    (origin : Nat × Nat) (f : Function) : Logged GenerationError Method :=
  f.describe (names c f) (c.path ++ "." ++ f.name) (t.inheritedDoc c.home c.path origin f.name)

/-- Whether a name is kept out of the description of a class. -/
def isPrivate (name : String) : Bool := name.toList.head? = some '_'

/-- The functions of a class that its description shows, with their origins. -/
def DeclaredClass.publicFunctions (c : DeclaredClass) : List ((Nat × Nat) × Function) :=
  c.attributes.entries.filterMap fun (name, a) => match a with
    | .method origin f => if isPrivate name then none else some (origin, f)
    | _ => none

/-- The description of a declared class: the public functions that stand in the class itself, and the
interfaces among its bases. The names give the meaning of texts in a function's annotations. -/
def describe (t : ClassTable) (names : DeclaredClass → Function → Names) (number : Nat) :
    Logged GenerationError ClassInfo :=
  match t.find? number with
  | none => Logged.fail (.notAClass (toString number))
  | some c => do
    let methods ← (DeclaredClass.publicFunctions c).mapM fun (origin, f) =>
      t.describeFunction names c origin f
    return {
      name := c.name
      module := some c.module
      methods
      supertypes := (c.bases.filter t.isInterface).map t.type
      doc := (t.doc (.declared number)).map Docstring.clean }

end ClassTable
end SyncFacade
