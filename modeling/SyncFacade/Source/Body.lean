import SyncFacade.Docstring
import SyncFacade.Source.Alias
import SyncFacade.Source.Parameters

/-! The text of a wrapper's methods: signature, documentation and the one statement of the body. Text
is made line by line, and joined in the end. -/
namespace SyncFacade

def indent : String := "    "

def indent2 : String := indent ++ indent

/-- The attribute that holds a field. -/
def attributeName (name : String) (isPrivate : Bool) : String := if isPrivate then "_" ++ name else name

/-- The attribute that a name stands for in a wrapper: the private one only for its own delegate. -/
def DelegateField.attribute (f : DelegateField) (name : String) : String :=
  attributeName name (f.isPrivate && name = f.name)

def Call.render (c : Call) (field : DelegateField) : String :=
  "self." ++ field.attribute c.receiver ++ "." ++ c.method ++ "(" ++
    Parameter.renderArguments c.arguments ++ ")"

/-- The scope that a body names: the alias, where it has a name to stand for, or the name that the body
has itself. A body without either names none. -/
def Aliases.scopeName (a : Aliases) (scope : Option String) : String :=
  match a.scope.filter (· != "") with
  | some localName => localName
  | none => scope.getD "None"

/-- The text of a body: the call, or a wrapper of it that is given the scope and makes the call later. -/
def Body.render (b : Body) (field : DelegateField) (aliases : Aliases) : String :=
  match b with
  | .direct c => c.render field
  | .deferred scope c =>
    aliases.deferredWrapper ++ "(" ++ aliases.scopeName scope ++ ", lambda: " ++ c.render field ++ ")"
  | .stream scope c =>
    aliases.streamWrapper ++ "(" ++ aliases.scopeName scope ++ ", lambda: " ++ c.render field ++ ")"

/-- The text of a body that has to be there. -/
def renderBody (b : Option Body) (field : DelegateField) (aliases : Aliases) :
    Except GenerationError String :=
  match b with
  | some b => .ok (b.render field aliases)
  | none => .error .missingBody

/-- The lines of a documentation that is there, and not empty. -/
def docLines (indent : String) (doc : Option String) : Except GenerationError (List String) :=
  match doc.filter (· != "") with
  | some doc => Docstring.literal indent doc
  | none => .ok []

namespace Method

def header (m : Method) (target : Option String) : String :=
  let parameters := Parameter.renderAll target m.parameters
  "def " ++ m.name ++ "(self" ++ (if parameters = "" then "" else ", " ++ parameters) ++ ")" ++
    (match m.result with | some t => " -> " ++ t.render target | none => "") ++ ":"

def decorators (m : Method) : List String :=
  if m.overrides then [indent ++ "@typing_extensions.override"] else []

def lines (m : Method) (field : DelegateField) (target : Option String) (aliases : Aliases) :
    Except GenerationError (List String) := do
  let doc ← docLines indent2 m.doc
  let body ← renderBody m.body field aliases
  return m.decorators ++ [indent ++ m.header target] ++ doc ++ [indent2 ++ "return " ++ body]

end Method
end SyncFacade
