import SyncFacade.Execution.World

/-! Eventual results: a call that is started anew by each subscription and by each wait for its result. -/
namespace SyncFacade

inductive Work (υ : Type) where
  | returns (v : υ)
  | raises (f : Fault)
  | hangs

/-- What the factory of a call gives: an error of its own, a thing that cannot be awaited, of which the
type is known, or a call. -/
inductive CallOutcome (υ : Type) where
  | factoryRaises (f : Fault)
  | notAwaitable (typeName : String)
  | awaits (work : Work υ)

/-- What becomes of an awaited call. -/
inductive Resolution (υ : Type) where
  | value (v : υ)
  | failed (e : Failure)
  | pending

variable {υ : Type}

def Work.resolution : Work υ → Resolution υ
  | .returns v => .value v
  | .raises f => .failed f.outsideCoroutine
  | .hangs => .pending

/-- The error of awaiting a thing of a type that cannot be awaited. -/
def notAwaitableFault (typeName : String) : Fault :=
  { kind := .other "TypeError", message := "object " ++ typeName ++ " can't be used in 'await' expression" }

/-- What becomes of what a factory gives, or the error of the factory. -/
def CallOutcome.resolution : CallOutcome υ → Except Fault (Resolution υ)
  | .factoryRaises f => .error f
  | .notAwaitable typeName => .ok (.failed (.fault (notAwaitableFault typeName)))
  | .awaits work => .ok work.resolution

/-- The call as its subscriber sees it. A call that is cancelled makes no callback. -/
def Resolution.submission (r : Resolution υ) (loop : Nat) : Submission υ :=
  match r with
  | .value v => { loop, future := .finished, events := [.success v] }
  | .failed (.fault f) => { loop, future := .finished, events := [.error f] }
  | .failed .cancelled => { loop, future := .cancelled }
  | .pending => { loop, future := .running, farewell := [.cancelled] }

def timeoutFault : Fault := { kind := .other "TimeoutError", message := "" }

/-- The outcome of waiting for a call. A call that hangs outlasts the wait. -/
def Resolution.awaited : Resolution υ → Except Fault υ
  | .value v => .ok v
  | .failed e => .error e.raised
  | .pending => .error timeoutFault

namespace CallOutcome

/-- Start a call. An error of the factory comes before anything is submitted. -/
def run (c : CallOutcome υ) (w : World υ) : World υ × Except Fault (Resolution υ) :=
  match c.resolution with
  | .ok r => (w.submit r.submission, .ok r)
  | .error f => (w, .error f)

end CallOutcome

/-- An eventual result, known by what makes the call. -/
abbrev Deferred (υ : Type) := Factory (CallOutcome υ)

namespace Deferred

/-- Start the call and report its outcome to callbacks. The result is the place of the submission. -/
def subscribe (d : Deferred υ) (w : World υ) : Deferred υ × World υ × Except Fault Nat :=
  let (after, started) := (Factory.next d).run (w.note (Factory.activity d))
  (Factory.called d, after, started.map fun _ => w.submissions.length)

/-- Start the call and wait for its result. -/
def result (d : Deferred υ) (w : World υ) : Deferred υ × World υ × Except Fault υ :=
  let (after, started) := (Factory.next d).run (w.note (Factory.activity d))
  (Factory.called d, after, started.bind Resolution.awaited)

end Deferred
end SyncFacade
