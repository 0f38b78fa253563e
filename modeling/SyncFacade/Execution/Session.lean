import SyncFacade.Execution.Deferred
import SyncFacade.Execution.Iteration
import SyncFacade.OrderedMap

/-! Sessions: scopes, calls and streams on them, and iterations over streams, known by names in the steps
that use them. A name that is given again stands for the new thing, while what was made with the old one
keeps it. -/
namespace SyncFacade

inductive Source (υ : Type) where
  | deferred (d : Deferred υ)
  | stream (t : Stream υ)

/-- All that was made in a session, by number, and what the names stand for now. A source knows its scope,
and an iteration its source. -/
structure Session (υ : Type) where
  worlds : Array (World υ) := #[]
  sources : Array (Nat × Source υ) := #[]
  iterations : Array (Nat × Iteration υ) := #[]
  scopeNames : OrderedMap String Nat := {}
  sourceNames : OrderedMap String Nat := {}
  iterationNames : OrderedMap String Nat := {}

/-- A step of a session. A subscription may have a callback for items that fails, and may be cancelled as
soon as it hangs. -/
inductive Step (υ : Type) where
  | makeScope (name : String)
  | makeSource (name scope : String) (source : Source υ)
  | state (scope : String)
  | closeScope (scope : String)
  | killScope (scope : String)
  | result (source : String)
  | subscribe (source : String) (fails cancels : Bool)
  | iterate (source : String) (limit : Option Nat)
  | iteration (source name : String)
  | next (iteration : String)
  | close (iteration : String)
  | throw (iteration : String) (f : Fault)

inductive Reply (υ : Type) where
  | done
  | running (isRunning : Bool)
  | value (v : υ)
  | failed (f : Fault)
  | callbacks (events : List (Event υ)) (cancelled : Bool)
  | items (items : List υ) (ending : Ending)
  | item (v : υ)
  | ended

/-- The answer of a step, with what has happened and what was recorded during it. -/
structure Answer (υ : Type) where
  reply : Reply υ
  activity : List Activity := []
  records : List Record := []

def callbackFault : Fault := { kind := .other "ValueError", message := "callback failed" }

variable {υ : Type}

def Reply.ofExcept : Except Fault υ → Reply υ
  | .ok v => .value v
  | .error f => .failed f

def Reply.ofNext : Next υ → Reply υ
  | .item v => .item v
  | .ended => .ended
  | .failed f => .failed f
  | .pending => .done

/-- The answer of an iteration up to its end. An error that nobody expects leaves no items. -/
def Reply.ofItems (items : List υ) : Ending → Reply υ
  | .failed f => if f.kind.isOrdinary then .items items (.failed f) else .failed f
  | ending => .items items ending

/-- The answer of an iteration that an error comes out of. One error is its regular end. -/
def Reply.ofThrown (f : Fault) : Reply υ := if f.kind = .stopIteration then .ended else .failed f

def Reply.ofFailure : Option Fault → Reply υ
  | some f => .failed f
  | none => .done

namespace Session

/-- End a step in which a scope took part. -/
def conclude (s : Session υ) (scope : Nat) (w : World υ) (reply : Reply υ) : Session υ × Answer υ :=
  ({ s with worlds := s.worlds.setIfInBounds scope { w with activity := [], records := [] } },
    { reply, activity := w.activity, records := w.records })

def scope? (s : Session υ) (name : String) : Option (Nat × World υ) := do
  let n ← s.scopeNames.find? name
  return (n, ← s.worlds[n]?)

def source? (s : Session υ) (number : Nat) : Option (Nat × World υ × Source υ) := do
  let (scope, source) ← s.sources[number]?
  return (scope, ← s.worlds[scope]?, source)

def setSource (s : Session υ) (number scope : Nat) (source : Source υ) : Session υ :=
  { s with sources := s.sources.setIfInBounds number (scope, source) }

def setIteration (s : Session υ) (number source : Nat) (it : Iteration υ) : Session υ :=
  { s with iterations := s.iterations.setIfInBounds number (source, it) }

/-- The callbacks of a subscription, which is cancelled if it hangs and that is asked for. -/
def callbacks (cancels : Bool) (w : World υ) : Except Fault Nat → World υ × Reply υ
  | .error f => (w, .failed f)
  | .ok place =>
    let hangs := cancels && !w.isFinal place
    let w := if hangs then w.cancel place else w
    (w, .callbacks (w.eventsOf place) hangs)

def subscribe (s : Session υ) (number : Nat) (fails cancels : Bool) : Option (Session υ × Answer υ) := do
  match ← s.source? number with
  | (scope, w, .deferred d) =>
    let (d, w, started) := Deferred.subscribe d w
    let (w, reply) := callbacks cancels w started
    return (s.setSource number scope (.deferred d)).conclude scope w reply
  | (scope, w, .stream t) =>
    let (t, w, started) := Stream.subscribe t (fun _ => if fails then some callbackFault else none) w
    let (w, reply) := callbacks cancels w started
    return (s.setSource number scope (.stream t)).conclude scope w reply

def advance (s : Session υ) (name : String)
    (go : Iteration υ → Stream υ → World υ → Stream υ × World υ × Iteration υ × Reply υ) :
    Option (Session υ × Answer υ) := do
  let number ← s.iterationNames.find? name
  let (source, it) ← s.iterations[number]?
  match ← s.source? source with
  | (scope, w, .stream t) =>
    let (t, w, it, reply) := go it t w
    return ((s.setSource source scope (.stream t)).setIteration number source it).conclude scope w reply
  | _ => none

/-- Do a step, unless one of its names stands for nothing that it could use, or it does not come to an end. -/
def step (s : Session υ) : Step υ → Option (Session υ × Answer υ)
  | .makeScope name =>
    let s' := { s with worlds := s.worlds.push {}, scopeNames := s.scopeNames.put name s.worlds.size }
    some (s'.conclude s.worlds.size {} .done)
  | .makeSource name scope source => do
    let (n, w) ← s.scope? scope
    let s' := { s with
      sources := s.sources.push (n, source)
      sourceNames := s.sourceNames.put name s.sources.size }
    return s'.conclude n w .done
  | .state scope => do
    let (n, w) ← s.scope? scope
    return s.conclude n w (.running w.scope.isRunning)
  | .closeScope scope => do
    let (n, w) ← s.scope? scope
    match w.close with
    | .ok w => return s.conclude n w .done
    | .error hindrance => return s.conclude n w (.failed (← hindrance.fault?))
  | .killScope scope => do
    let (n, w) ← s.scope? scope
    return s.conclude n w.die .done
  | .result source => do
    let number ← s.sourceNames.find? source
    match ← s.source? number with
    | (scope, w, .deferred d) =>
      let (d, w, outcome) := Deferred.result d w
      return (s.setSource number scope (.deferred d)).conclude scope w (.ofExcept outcome)
    | _ => none
  | .subscribe source fails cancels => do s.subscribe (← s.sourceNames.find? source) fails cancels
  | .iterate source limit => do
    let number ← s.sourceNames.find? source
    match ← s.source? number with
    | (scope, w, .stream t) =>
      let (t, w, items, ending) := Stream.iterate t limit w
      return (s.setSource number scope (.stream t)).conclude scope w (.ofItems items ending)
    | _ => none
  | .iteration source name => do
    let number ← s.sourceNames.find? source
    let (scope, w, _) ← s.source? number
    let s' := { s with
      iterations := s.iterations.push (number, .unopened)
      iterationNames := s.iterationNames.put name s.iterations.size }
    return s'.conclude scope w .done
  | .next name => s.advance name fun it t w =>
    let (t, w, it, answer) := it.next t w
    (t, w, it, .ofNext answer)
  | .close name => s.advance name fun it t w =>
    let (w, closing) := it.close w
    (t, w, .over, .ofFailure closing)
  | .throw name f => s.advance name fun it t w =>
    let (w, raised) := it.throw f w
    (t, w, .over, .ofThrown raised)

end Session
end SyncFacade
