import SyncFacade.TypeRef

/-! The text of a type in a generated module. A type that the module itself defines is written without
a qualifier; any other qualifier needs an import. -/
namespace SyncFacade.TypeRef

/-- The module that qualifies a type in the text of the target module. -/
def printedQualifier (target : Option String) (t : TypeRef) : Option String :=
  t.qualifier.filter fun m => some m != target

def label (target : Option String) (t : TypeRef) : String :=
  match t.printedQualifier target with
  | some m => m ++ "." ++ t.name
  | none => t.name

mutual

/-- The text of a type in the target module: its label, then its arguments in brackets. -/
def render (target : Option String) : TypeRef → String
  | ⟨name, module, arguments⟩ =>
    label target ⟨name, module, []⟩ ++ match arguments with
      | [] => ""
      | _ :: _ => "[" ++ ", ".intercalate (renderAll target arguments) ++ "]"

def renderAll (target : Option String) : List TypeRef → List String
  | [] => []
  | t :: ts => render target t :: renderAll target ts

end

mutual

/-- The modules that qualify a type or one of the types inside it, outermost first. -/
def modules : TypeRef → List String
  | ⟨name, module, arguments⟩ =>
    (qualifier ⟨name, module, []⟩).toList ++ modulesOfAll arguments

def modulesOfAll : List TypeRef → List String
  | [] => []
  | t :: ts => modules t ++ modulesOfAll ts

end

end SyncFacade.TypeRef
