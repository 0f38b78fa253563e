import SyncFacade.TypeHint

/-! The text of an annotation, as it is shown where it stands in a list. It tells all of the annotation;
the reference that a description records leaves some of it out. -/
namespace SyncFacade

/-- Where the text of an annotation stands: on its own, as an argument of a form of the typing library, as
an argument of a class itself, or as a member of a union that the operator made. Classes are shown by their
names alone unless they stand on their own. -/
inductive TextPlace where
  | alone
  | argument
  | parameter
  | member
deriving DecidableEq

def bracketed (names : List String) : String := "[" ++ ", ".intercalate names ++ "]"

/-- Arguments in brackets. No arguments are shown as an empty row of them. -/
def bracketedArguments (names : List String) : String :=
  if names.isEmpty then "[()]" else bracketed names

/-- The name of a class behind its module. Classes that are known everywhere need no module. -/
def NamedClass.path (c : NamedClass) : String :=
  if c.module = "builtins" then c.name else c.module ++ "." ++ c.name

/-- The text of a class of the given name. -/
def TextPlace.ofClass (place : TextPlace) (path : String) : String :=
  if place = .alone then "<class '" ++ path ++ "'>" else path

/-- The text of the class that has no value but the null. -/
def TextPlace.nullType : TextPlace → String
  | .alone => "<class 'NoneType'>"
  | .member => "None"
  | _ => "NoneType"

def NamedObject.path (o : NamedObject) : String := o.module.getD "None" ++ "." ++ o.name

/-- The text of a thing that is no class. The typing library shows functions by their names, and classes show
what they are applied to as they show classes. -/
def TextPlace.ofObject (place : TextPlace) (o : NamedObject) : String :=
  match place with
  | .alone => o.path
  | .argument => if o.isFunction then o.name else o.path
  | _ => if o.module = some "builtins" then o.name else o.path

/-- Whether the class of callables itself takes an argument for all parameters. -/
def TypeHint.hasParametersGiven : List TypeHint → Bool
  | [.value (.tuple _), _] => false
  | as => hasParametersInOne as

/-- Whether the arguments of a generic class are shown with all parameters in one. -/
def Application.showsInOne (form : Application) (arguments : List TypeHint) : Bool :=
  if form.isAlias then TypeHint.hasParametersInOne arguments else TypeHint.hasParametersGiven arguments

/-- The place of the arguments of a generic class. The class of callables lists parameters as the typing
library does. -/
def Application.place (form : Application) (parametersInOne : Bool) : TextPlace :=
  match form with
  | .direct => .parameter
  | .signature => if parametersInOne then .parameter else .argument
  | .alias _ => .argument

def typingModule : String := "typing"

namespace TypeHint

def typingPath (name : String) : String := typingModule ++ "." ++ name

/-- The text of a special form by itself. One that is a class is shown so, unless it stands for any type. -/
def specialText (place : TextPlace) (name : String) : String :=
  if specialClasses.contains name && name ≠ "Any" then place.ofClass (typingPath name) else typingPath name

/-- The text of a callable's arguments: its parameters in a list, and its result. -/
def signatureText (parametersInOne : Bool) (arguments : List String) : String :=
  bracketed (if parametersInOne then arguments
    else bracketed arguments.dropLast :: arguments.getLast?.toList)

/-- The text of a generic class with its arguments, in the given form. -/
def applicationText (form : Application) (origin : String) (parametersInOne : Bool)
    (arguments : List String) : String :=
  match form with
  | .direct => origin ++ bracketedArguments arguments
  | .signature => origin ++ signatureText parametersInOne arguments
  | .alias name => typingPath name ++
    (if name = "Callable" then signatureText parametersInOne arguments else bracketedArguments arguments)

/-- The text of a union of the typing library. One with a null and a second member is an optional one. -/
def unionText : List TypeHint → List String → String
  | [.nullType, _], [_, t] => typingPath "Optional" ++ bracketed [t]
  | [_, .nullType], [t, _] => typingPath "Optional" ++ bracketed [t]
  | _, ts => typingPath "Union" ++ bracketed ts

mutual

def shownAt (place : TextPlace) : TypeHint → String
  | .null => "None"
  | .nullType => place.nullType
  | .text s => Text.quote s
  | .forward s => "ForwardRef(" ++ Text.quote s ++ ")"
  | .typeVariable n _ => "~" ++ n
  | .parameterVariable n _ => "~" ++ n
  | .cls c => place.ofClass c.path
  | .named o => place.ofObject o
  | .alias n => typingPath n
  | .applied form origin as =>
    let inOne := form.showsInOne as
    applicationText form (shownAt .parameter origin) inOne (allShownAt (form.place inOne) as)
  | .special n [] => specialText place n
  | .special "Unpack" [a] => "*" ++ shownAt .alone a
  | .special n as => typingPath n ++ bracketed (allShownAt .argument as)
  | .union true ms => " | ".intercalate (allShownAt .member ms)
  | .union false ms => unionText ms (allShownAt .argument ms)
  | .literal vs => typingPath "Literal" ++ bracketedArguments (allShownAt .argument vs)
  | .annotated base es =>
    typingPath "Annotated" ++ bracketed (shownAt .argument base :: allShownAt .alone es)
  | .ellipsis => if place = .alone then "Ellipsis" else "..."
  | .list as => bracketed (allShownAt .alone as)
  | .value v => v.text

def allShownAt (place : TextPlace) : List TypeHint → List String
  | [] => []
  | a :: as => shownAt place a :: allShownAt place as

end

end TypeHint
end SyncFacade
