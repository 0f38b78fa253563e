import SyncFacade.TypeHint.Reference
import SyncFacade.Docstring
import SyncFacade.Error
import SyncFacade.Log
import SyncFacade.Method

/-! Functions as they are declared in classes, and the methods that describe them. Annotations given as
text are evaluated before they are recorded, all of a function's or none. -/
namespace SyncFacade

/-- What calling a function gives: a result, a generator, a coroutine or an asynchronous generator. -/
inductive FunctionKind where
  | plain
  | generator
  | coroutine
  | asyncGenerator
deriving DecidableEq

structure DeclaredParameter where
  name : String
  kind : ParameterKind := .positionalOrKeyword
  type : Option TypeHint := none
  default : Option Value := none

/-- What the texts of annotations stand for, where it is known. -/
abbrev Names := String → Option TypeHint

/-- A function as declared. `signature` are the parameters a caller sees, the receiver included: those of the
function, or what is found out about one that passes arguments on. `calledAs` is the kind of the function that
replaces it under its name. `known` are the meanings of texts that come with the function itself. -/
structure Function where
  name : String
  kind : FunctionKind := .plain
  parameters : List DeclaredParameter := []
  result : Option TypeHint := none
  doc : Option String := none
  overrides : Bool := false
  signature : List DeclaredParameter := parameters
  calledAs : Option FunctionKind := none
  known : List (String × TypeHint) := []

/-- How a function of a kind hands over its result. A coroutine is awaited first, whatever it returns. -/
def FunctionKind.convention (kind : FunctionKind) (result : Option TypeHint) : Convention :=
  match kind with
  | .coroutine => .deferred
  | .asyncGenerator => .streaming
  | _ => if result.any TypeHint.isAsyncStream then .streaming else .direct

/-- Whether a function of a kind gives a stream when it is called. -/
def FunctionKind.streams (kind : FunctionKind) (result : Option TypeHint) : Bool :=
  kind = .asyncGenerator || result.any TypeHint.isAsyncStream

namespace DeclaredParameter

def isPositional (p : DeclaredParameter) : Bool :=
  p.kind = .positionalOnly || p.kind = .positionalOrKeyword

end DeclaredParameter

/-- The value of an annotation, unless it is a text that stands for nothing. -/
def TypeHint.evaluate? (names : Names) : TypeHint → Option TypeHint
  | .text s => names s
  | a => some a

namespace Function

/-- What a call of the function by its name gives. -/
def callKind (f : Function) : FunctionKind := f.calledAs.getD f.kind

def names (f : Function) : Names := fun s => f.known.lookup s

/-- The signature without its receiver: the first parameter, if it is positional. -/
def arguments (f : Function) : List DeclaredParameter :=
  match f.signature with
  | [] => []
  | p :: ps => if p.isPositional then ps else p :: ps

def annotations (f : Function) : List TypeHint :=
  f.parameters.filterMap (·.type) ++ f.result.toList

def evaluates (f : Function) (names : Names) : Bool :=
  f.annotations.all fun a => (a.evaluate? names).isSome

/-- An annotation of a function as it is recorded: its value, or the annotation as written if some
annotation of the function has no value. -/
def evaluated (f : Function) (names : Names) (a : TypeHint) : TypeHint :=
  if f.evaluates names then (a.evaluate? names).getD a else a

/-- The annotation recorded for a parameter of the signature. The function's own annotation of that name
comes first; for another parameter it is the one that the signature has, and its value was found with it. -/
def annotationOf (f : Function) (names : Names) (p : DeclaredParameter) : Option TypeHint :=
  match (f.parameters.find? (·.name = p.name)).bind (·.type) with
  | some a => some (f.evaluated names a)
  | none => p.type

def describeParameter (f : Function) (names : Names) (p : DeclaredParameter) : Parameter where
  name := p.name
  type := (f.annotationOf names p).map TypeHint.reference
  kind := p.kind
  default := p.default.map Value.text

/-- The record of annotations that stay as written. -/
def unevaluated (qualifiedName : String) : Record :=
  { level := .debug
    channel := .reader
    message := "Could not evaluate annotations of " ++ qualifiedName ++ ", using them unevaluated" }

/-- The description of a function as a method. The documentation is its own, or else the one given. -/
def describe (f : Function) (names : Names) (qualifiedName : String) (inherited : Option String) :
    Logged GenerationError Method :=
  let result := f.result.map (f.evaluated names)
  let convention := f.callKind.convention result
  { records := if f.evaluates names then [] else [unevaluated qualifiedName]
    outcome := .ok {
      name := f.name
      parameters := f.arguments.map (f.describeParameter names)
      result := result.map TypeHint.reference
      convention
      suspends := convention = .deferred
      overrides := f.overrides
      doc := (f.doc.or inherited).map Docstring.clean } }

end Function
end SyncFacade
