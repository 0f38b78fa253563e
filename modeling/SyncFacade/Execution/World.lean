import SyncFacade.Execution.Scope

/-! What a scope has been given to run, and what has happened so far. A call is finished at once, unless
it hangs: then it stays until its future is cancelled or the loop under it ends. -/
namespace SyncFacade

/-- Something that a source of results or items does or is asked for. -/
inductive Activity where
  /-- A source is made by its factory, for the given time. -/
  | made (count : Nat)
  | asked
  | closing
  | started
  /-- Something that hangs is cancelled. -/
  | cancelled
  /-- A stream leaves its body for good. -/
  | finalised
deriving DecidableEq

/-- What a source itself leaves in a trace. What it is asked for leaves nothing. -/
def Activity.trace? : Activity → Option String
  | .made count => some ("call " ++ toString count)
  | .started => some "start"
  | .cancelled => some "cancelled"
  | .finalised => some "finally"
  | .asked => none
  | .closing => none

/-- A call of one of a subscriber's callbacks. -/
inductive Event (υ : Type) where
  | success (v : υ)
  | each (v : υ)
  | complete
  | error (f : Fault)

def Event.isTerminal {υ : Type} : Event υ → Bool
  | .each _ => false
  | _ => true

inductive FutureState where
  | running
  | finished
  | cancelled
deriving DecidableEq

/-- A call handed to a loop: the state of its future, the callbacks it made, and what it does when it is
cancelled. -/
structure Submission (υ : Type) where
  loop : Nat
  future : FutureState
  events : List (Event υ) := []
  farewell : List Activity := []

/-- A scope, all that was submitted to it, and what has happened, oldest first. -/
structure World (υ : Type) where
  scope : ExecutionScope := {}
  submissions : List (Submission υ) := []
  activity : List Activity := []
  records : List Record := []

namespace World

variable {υ : Type}

def note (w : World υ) (activity : List Activity) : World υ :=
  { w with activity := w.activity ++ activity }

/-- Get a loop to run something on. -/
def enter (w : World υ) : World υ × Nat :=
  let (records, scope, loop) := w.scope.acquire
  ({ w with scope, records := w.records ++ records }, loop)

def submit (w : World υ) (call : Nat → Submission υ) : World υ :=
  let (w, loop) := w.enter
  { w with submissions := w.submissions ++ [call loop] }

/-- Cancel the calls that still run and satisfy a condition on their place and loop. -/
def cancelWhere (w : World υ) (which : Nat → Nat → Bool) : World υ :=
  let chosen := fun (s : Submission υ) place => s.future = .running && which place s.loop
  { w with
    submissions := w.submissions.zipIdx.map fun (s, place) =>
      if chosen s place then { s with future := .cancelled } else s
    activity := w.activity ++
      (w.submissions.zipIdx.filter fun (s, place) => chosen s place).flatMap (·.1.farewell) }

def cancel (w : World υ) (place : Nat) : World υ := w.cancelWhere fun p _ => p = place

/-- The end of the recorded loop cancels what still runs on it. What is cancelled is assumed to give way, as
where a thread is stopped, so nothing is left running. -/
def endLoop (w : World υ) : World υ := w.cancelWhere fun _ loop => w.scope.loop = some loop

def close (w : World υ) : Except Hindrance (World υ) :=
  w.scope.close.map fun scope => { w.endLoop with scope }

def die (w : World υ) : World υ := { w.endLoop with scope := w.scope.die }

def isFinal (w : World υ) (place : Nat) : Bool :=
  w.submissions[place]?.all (·.future ≠ .running)

def eventsOf (w : World υ) (place : Nat) : List (Event υ) :=
  (w.submissions[place]?.map Submission.events).getD []

end World

/-- The scripted sources that a factory makes, one after the other. The last one is made again from then
on. -/
structure Factory (ω : Type) where
  first : ω
  rest : List ω := []
  calls : Nat := 0

namespace Factory

variable {ω : Type}

def next (f : Factory ω) : ω := (f.first :: f.rest).getD f.calls ((f.first :: f.rest).getLast nofun)

def called (f : Factory ω) : Factory ω := { f with calls := f.calls + 1 }

/-- What a call leaves in the trace. -/
def activity (f : Factory ω) : List Activity := [.made (f.calls + 1)]

end Factory
end SyncFacade
