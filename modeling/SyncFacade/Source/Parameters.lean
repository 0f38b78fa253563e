import SyncFacade.Method
import SyncFacade.Source.Type

/-! The text of parameters: as a declaration, with the separators that set off positional-only and
keyword-only parameters, and as the arguments that pass them on to another method of the same
signature. -/
namespace SyncFacade

namespace Parameter

/-- A parameter's name behind the marks of a parameter that takes all further arguments. -/
def markedName (p : Parameter) : String :=
  match p.kind with
  | .extraPositional => "*" ++ p.name
  | .extraKeyword => "**" ++ p.name
  | _ => p.name

def declaration (target : Option String) (p : Parameter) : String :=
  p.markedName ++ (match p.type with | some t => ": " ++ t.render target | none => "") ++
    (match p.default with | some d => " = " ++ d | none => "")

/-- The argument that passes a parameter on. -/
def argument (p : Parameter) : String :=
  match p.kind with
  | .keywordOnly => p.name ++ "=" ++ p.name
  | _ => p.markedName

/-- The items of a parameter list. A `*` stands before the first keyword-only parameter, unless a
parameter that takes all further positional arguments stands there already, and a `/` after the last of
successive positional-only ones. -/
def items (target : Option String) : (starred : Bool) → List Parameter → List String
  | _, [] => []
  | starred, p :: ps =>
    let star := p.kind = .keywordOnly && !starred
    let slash := p.kind = .positionalOnly && ps.head?.all (·.kind ≠ .positionalOnly)
    (if star then ["*"] else []) ++ [p.declaration target] ++ (if slash then ["/"] else []) ++
      items target (starred || star || p.kind = .extraPositional) ps

def renderAll (target : Option String) (ps : List Parameter) : String :=
  ", ".intercalate (items target false ps)

def renderArguments (ps : List Parameter) : String := ", ".intercalate (ps.map argument)

end Parameter
end SyncFacade
