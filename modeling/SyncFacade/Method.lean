import SyncFacade.TypeRef

/-! Methods as a description records them: parameters, the way the result is handed over, and the
single delegating call that is the body of a wrapper's method. -/
namespace SyncFacade

/-- How a call may bind a parameter. -/
inductive ParameterKind where
  | positionalOnly
  | positionalOrKeyword
  | extraPositional
  | keywordOnly
  | extraKeyword
deriving DecidableEq

/-- A parameter. The default is source text, so that it can be printed as it was written. -/
structure Parameter where
  name : String
  type : Option TypeRef := none
  kind : ParameterKind := .positionalOrKeyword
  default : Option String := none
deriving DecidableEq

/-- What two parameters share when they declare the same thing: all but the default. -/
def Parameter.bare (p : Parameter) : Parameter := { p with default := none }

/-- How a method hands its result to the caller: at once, through an awaited call, or item by item. -/
inductive Convention where
  | direct
  | deferred
  | streaming
deriving DecidableEq

def Convention.word : Convention → String
  | .direct => "direct"
  | .deferred => "deferred"
  | .streaming => "streaming"

/-- A call of a method of a field of the wrapper, with the wrapper method's own parameters. -/
structure Call where
  receiver : String
  method : String
  arguments : List Parameter := []
deriving DecidableEq

def Call.bare (c : Call) : Call := { c with arguments := c.arguments.map Parameter.bare }

/-- The body of a wrapper's method: the call itself, or the call handed unevaluated to a wrapper of
its eventual result or of its stream, together with the name of the scope that runs it. -/
inductive Body where
  | direct (call : Call)
  | deferred (scope : Option String) (call : Call)
  | stream (scope : Option String) (call : Call)
deriving DecidableEq

def Body.bare : Body → Body
  | .direct c => .direct c.bare
  | .deferred s c => .deferred s c.bare
  | .stream s c => .stream s c.bare

def Body.call : Body → Call
  | .direct c => c
  | .deferred _ c => c
  | .stream _ c => c

/-- A method. `suspends` marks a method that is awaited, `overrides` one that is declared to
override a method of a supertype. -/
structure Method where
  name : String
  parameters : List Parameter := []
  result : Option TypeRef := none
  convention : Convention := .direct
  suspends : Bool := false
  overrides : Bool := false
  body : Option Body := none
  doc : Option String := none
deriving DecidableEq

/-- A method without its documentation and without the defaults of its parameters. -/
def Method.bare (m : Method) : Method :=
  { m with parameters := m.parameters.map Parameter.bare, body := m.body.map Body.bare, doc := none }

end SyncFacade
