import SyncFacade.TypeHint

/-! The making of annotations. The typing library keeps what it has made: a form that is applied again, to
arguments equal to those of before, gives what it gave then, whose parts may stand in another order. What
has no hash cannot be found again and is always made. -/
namespace SyncFacade

/-- What is applied to arguments: a name, or callables, of which the parameters can be listed or not. -/
inductive Form where
  | name (s : String)
  | callable (listed : Bool)
deriving DecidableEq

/-- An application that was made, and what it gave. -/
structure MadeHint where
  form : Form
  arguments : List TypeHint
  result : TypeHint

/-- The applications made so far, the latest first, and the serials given away. -/
structure Stock where
  made : List MadeHint := []
  serials : Nat := 0

namespace Stock

/-- How something is made with a stock at hand. -/
abbrev Making := StateM Stock

/-- A serial that nothing has yet. -/
def serial : Making Nat := do
  let n := (← get).serials + 1
  modify fun s => { s with serials := n }
  return n

/-- Whether a form finds its arguments again by equality alone. Literals tell sorts apart as well. -/
def agree (form : Form) (as bs : List TypeHint) : Bool :=
  TypeHint.allSame as bs && (form ≠ .name "Literal" || (as.zip bs).all fun (a, b) => a.sameSort b)

/-- What a form gave for equal arguments. -/
def find? (s : Stock) (form : Form) (arguments : List TypeHint) : Option TypeHint :=
  (s.made.find? fun m => m.form = form && agree form m.arguments arguments).map MadeHint.result

/-- Apply a form that was perhaps applied before. -/
def once (form : Form) (arguments : List TypeHint) (make : Making TypeHint) : Making TypeHint := do
  if !TypeHint.allHashable arguments then make
  else match (← get).find? form arguments with
    | some a => return a
    | none =>
      let result ← make
      modify fun s => { s with made := { form, arguments, result } :: s.made }
      return result

def union (as : List TypeHint) : Making TypeHint := once (.name "Union") as (pure (.unionOf as))

def optional (a : TypeHint) : Making TypeHint :=
  once (.name "Optional") [a] (union [a.asType, .nullType])

/-- Two annotations with an operator between them. Some of them the operator joins by itself, and the others
leave it to the typing library. -/
def join (a b : TypeHint) : Making TypeHint :=
  if a.isOperand && b.isOperand then pure (.unionOf [a, b] true) else union [a, b]

/-- Annotations with operators between them. -/
def joined : List TypeHint → Making TypeHint
  | [] => union []
  | a :: as => as.foldlM join a

def literal (values : List TypeHint) : Making TypeHint :=
  once (.name "Literal") values (pure (.literalOf values))

def annotated (base : TypeHint) (extras : List TypeHint) : Making TypeHint :=
  once (.name "Annotated") (base :: extras) (pure (.annotatedOf base extras))

/-- A callable. The class itself keeps nothing of what it has made. -/
def callable (viaAlias : Bool) (parameters result : TypeHint) : Making TypeHint :=
  let make : Making TypeHint := pure (.callableOf viaAlias parameters result)
  if viaAlias then once (.callable parameters.isListed) (parameters.listed ++ [result]) make else make

/-- A name of the typing library, applied to arguments if some are given. -/
def typingForm (name : String) (arguments : Option (List TypeHint)) : Making TypeHint :=
  match name, arguments.map TypeHint.spread with
  | name, none => pure (.typingName name)
  | "Literal", some vs => literal vs
  | "Optional", some [a] => optional a
  | "Union", some as => union as
  | "Annotated", some (a :: as) => annotated a as
  | "Callable", some [ps, result] => callable true ps result
  | name, some as => once (.name name) as (pure (.appliedName name as))

end Stock
end SyncFacade
