import SyncFacade.Text.Quoted

/-! Errors that come out of calls and streams, and what becomes of them on the way. A few kinds of error
mean something to the frame they pass through, so that frame replaces them. -/
namespace SyncFacade

/-- The kind of an error. Those that some frame gives a meaning to are told apart. A call that is cancelled
raises one error inside and another one to those who wait for it. -/
inductive FaultKind where
  | stopIteration
  | stopAsyncIteration
  | generatorExit
  | cancelled
  | cancelledOutcome
  | key
  | other (name : String)
deriving DecidableEq

namespace FaultKind

def name : FaultKind → String
  | .stopIteration => "StopIteration"
  | .stopAsyncIteration => "StopAsyncIteration"
  | .generatorExit => "GeneratorExit"
  | .cancelled => "CancelledError"
  | .cancelledOutcome => "CancelledError"
  | .key => "KeyError"
  | .other name => name

/-- Kinds that have a second name. -/
def canonicalNames : List (String × String) := [("IOError", "OSError"), ("EnvironmentError", "OSError")]

def ofName (name : String) : FaultKind :=
  match [stopIteration, stopAsyncIteration, generatorExit, cancelled, key].find? (·.name = name) with
  | some kind => kind
  | none => .other ((canonicalNames.lookup name).getD name)

/-- The names of the kinds, apart from those that frames know, that are orders to stop more than errors. -/
def ordersToStop : List String := ["BaseException", "KeyboardInterrupt", "SystemExit"]

/-- Whether those who expect errors expect this kind. -/
def isOrdinary : FaultKind → Bool
  | .generatorExit => false
  | .cancelled => false
  | .other name => !ordersToStop.contains name
  | _ => true

end FaultKind

structure Fault where
  kind : FaultKind
  message : String
deriving DecidableEq

/-- How awaited code fails: with an error, or by being cancelled. -/
inductive Failure where
  | fault (f : Fault)
  | cancelled
deriving DecidableEq

namespace Fault

/-- The text of an error. A missing key is shown quoted. -/
def text (f : Fault) : String := if f.kind = .key then Text.quote f.message else f.message

def ofRuntime (message : String) : Fault := { kind := .other "RuntimeError", message }

/-- The error of a frame that lets an error out which would look like its regular end. -/
def escaped (frame : String) (f : Fault) : Fault := ofRuntime (frame ++ " raised " ++ f.kind.name)

def outsideGenerator (f : Fault) : Fault :=
  if f.kind = .stopIteration then f.escaped "generator" else f

def outsideCoroutine (f : Fault) : Failure :=
  match f.kind with
  | .cancelled => .cancelled
  | .stopIteration => .fault (f.escaped "coroutine")
  | _ => .fault f

def outsideAsyncGenerator (f : Fault) : Failure :=
  match f.kind with
  | .cancelled => .cancelled
  | .stopIteration => .fault (f.escaped "async generator")
  | .stopAsyncIteration => .fault (f.escaped "async generator")
  | _ => .fault f

/-- What an error is outside the asynchronous generator that raises it while it is closed. The error that
closed it ends it quietly. -/
def outsideClosed (f : Fault) : Option Failure :=
  if f.kind = .generatorExit then none else some f.outsideAsyncGenerator

end Fault

/-- The error that a failure is to the one who waits for the outcome. -/
def Failure.raised : Failure → Fault
  | .fault f => f
  | .cancelled => { kind := .cancelledOutcome, message := "" }

end SyncFacade
