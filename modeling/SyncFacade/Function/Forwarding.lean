import SyncFacade.Function

/-! The signature that is found for a function that passes its surplus arguments on to another one. A description
takes the signature as it is given, so that nothing else rests on how it was found. -/
namespace SyncFacade.DeclaredParameter

def isSurplus (p : DeclaredParameter) : Bool := p.kind = .extraPositional || p.kind = .extraKeyword

/-- The place of a parameter's kind in a signature. -/
def rank (p : DeclaredParameter) : Nat :=
  match p.kind with
  | .positionalOnly => 0
  | .positionalOrKeyword => 1
  | .extraPositional => 2
  | .keywordOnly => 3
  | .extraKeyword => 4

/-- A parameter in front of positional-only ones. -/
def positionalOnly (p : DeclaredParameter) : DeclaredParameter :=
  if p.isPositional then { p with kind := .positionalOnly } else p

/-- A positional parameter in front of one without a default, where it cannot keep its own. -/
def required (p : DeclaredParameter) : DeclaredParameter :=
  if p.isPositional then { p with default := none } else p

/-- The annotation of a parameter that collects the surplus of two functions: the one there is, or the one
that both agree on. -/
def agreed : Option TypeHint → Option TypeHint → Option TypeHint
  | none, a => a
  | a, none => a
  | some a, some b => if b.same a then some b else none

/-- The kind of the parameters that only the surplus of a kind can reach. -/
def reachedBy : ParameterKind → Option ParameterKind
  | .extraPositional => some .positionalOnly
  | .extraKeyword => some .keywordOnly
  | _ => none

/-- A parameter of the function that surplus arguments are passed to. One that collects surplus itself
stands for that of the passing function as well, unless this is used up: parameters that take nothing else
come before it. -/
def behind (own inner : List DeclaredParameter) (p : DeclaredParameter) : DeclaredParameter :=
  if p.isSurplus && !inner.any (fun q => some q.kind = reachedBy p.kind) then
    { p with type := agreed ((own.find? (·.kind = p.kind)).bind (·.type)) p.type }
  else p

/-- The parameters of a function that passes its surplus arguments on: its own without those that
collect the surplus, and behind them those of the function they are passed to. -/
def forwarding (own inner : List DeclaredParameter) : List DeclaredParameter :=
  let kept := own.filter (!·.isSurplus)
  let kept := if inner.any (·.kind = .positionalOnly) then kept.map positionalOnly else kept
  let kept := match inner.find? isPositional with
    | some p => if p.default.isNone then kept.map required else kept
    | none => kept
  (kept ++ inner.map (behind own inner)).mergeSort fun p q => p.rank ≤ q.rank

end SyncFacade.DeclaredParameter
