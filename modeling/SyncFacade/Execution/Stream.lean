import SyncFacade.Execution.World

/-! Streams: scripted sources of items, and subscriptions to them. A source is asked for its items one by
one. It may be possible to close it early, as it always is with an asynchronous generator. -/
namespace SyncFacade

/-- What a source is: an asynchronous generator, or an object of a class that answers by coroutines. -/
inductive StreamKind where
  | generator
  | iterator
deriving DecidableEq

/-- What follows the last item. -/
inductive Finish where
  | ends
  | raises (f : Fault)
  | hangs

/-- What a source does: its items, what follows them, whether it can be closed, and the error of closing it. A class
may have a method to close its objects or not. -/
structure StreamScript (υ : Type) where
  items : List υ := []
  finish : Finish := .ends
  kind : StreamKind := .generator
  closeRaises : Option Fault := none
  closable : Bool := kind = .generator
  closable_of_generator : kind = .generator → closable = true := by simp

inductive Phase where
  | fresh
  | suspended
  | finished
deriving DecidableEq

/-- A source under way, with the items that are left. -/
structure Cursor (υ : Type) where
  script : StreamScript υ
  left : List υ
  phase : Phase := .fresh

inductive Advance (υ : Type) where
  | item (v : υ)
  | ended
  | failed (e : Failure)
  | pending

variable {υ : Type}

def StreamScript.cursor (s : StreamScript υ) : Cursor υ := { script := s, left := s.items }

/-- What an error is outside the source that raises it. An object of a class ends that way regularly. -/
def StreamKind.outside (kind : StreamKind) (f : Fault) : Advance υ :=
  match kind with
  | .generator => .failed f.outsideAsyncGenerator
  | .iterator => if f.kind = .stopAsyncIteration then .ended else .failed f.outsideCoroutine

namespace Cursor

def finished (c : Cursor υ) : Cursor υ := { c with phase := .finished }

/-- What a source does first when it runs on. -/
def beginning (c : Cursor υ) : List Activity := if c.phase = .fresh then [.started] else []

def advance (c : Cursor υ) : Advance υ × Cursor υ × List Activity :=
  if c.phase = .finished then (.ended, c, [.asked])
  else match c.left with
    | v :: left => (.item v, { c with left, phase := .suspended }, .asked :: c.beginning)
    | [] =>
      match c.script.finish with
      | .ends => (.ended, c.finished, .asked :: c.beginning ++ [.finalised])
      | .raises f => (c.script.kind.outside f, c.finished, .asked :: c.beginning ++ [.finalised])
      | .hangs => (.pending, { c with phase := .suspended }, .asked :: c.beginning)

def isClosable (c : Cursor υ) : Bool := c.script.closable

/-- The error of closing a source. A generator has nothing to do where it is not suspended; a method of a class runs
whenever it is called. -/
def closingError (c : Cursor υ) : Option Failure :=
  match c.script.kind with
  | .generator => if c.phase = .suspended then c.script.closeRaises.bind Fault.outsideClosed else none
  | .iterator => c.script.closeRaises.map Fault.outsideCoroutine

/-- Close a source. It leaves its body only if it has entered it and not left it before. -/
def close (c : Cursor υ) : Option Failure × Cursor υ × List Activity :=
  (c.closingError, c.finished, if c.phase = .suspended then [.closing, .finalised] else [.closing])

end Cursor

inductive StreamOutcome (υ : Type) where
  | factoryRaises (f : Fault)
  | source (script : StreamScript υ)

/-- The most items that what a factory gives can have. -/
def StreamOutcome.itemCount : StreamOutcome υ → Nat
  | .factoryRaises _ => 0
  | .source script => script.items.length

/-- How the consumption of a source comes to an end, if it does. -/
inductive Conclusion where
  | complete
  | failed (e : Failure)
  | pending

/-- How a source was consumed: the callbacks made for items, what happened, and the conclusion. -/
structure Collection (υ : Type) where
  events : List (Event υ) := []
  activity : List Activity := []
  conclusion : Conclusion := .pending

/-- Call back for up to so many items and the end behind them. A callback that fails ends the collection. -/
def Cursor.collect (each : υ → Option Fault) : Nat → Cursor υ → Collection υ
  | 0, _ => {}
  | n + 1, c =>
    match c.advance with
    | (.item v, c, activity) =>
      match each v with
      | some f => { events := [.each v], activity, conclusion := .failed f.outsideCoroutine }
      | none =>
        let rest := collect each n c
        { rest with events := .each v :: rest.events, activity := activity ++ rest.activity }
    | (.ended, _, activity) => { activity, conclusion := .complete }
    | (.failed e, _, activity) => { activity, conclusion := .failed e }
    | (.pending, _, activity) => { activity }

/-- The consumption of a source as its subscriber sees it. -/
def Collection.submission (c : Collection υ) (loop : Nat) : Submission υ :=
  match c.conclusion with
  | .complete => { loop, future := .finished, events := c.events ++ [.complete] }
  | .failed (.fault f) => { loop, future := .finished, events := c.events ++ [.error f] }
  | .failed .cancelled => { loop, future := .cancelled, events := c.events }
  | .pending => { loop, future := .running, events := c.events, farewell := [.cancelled, .finalised] }

/-- A stream, known by what makes its sources. -/
abbrev Stream (υ : Type) := Factory (StreamOutcome υ)

/-- Consume a new source, with a callback for each item that may fail. The result is the place of the
submission. -/
def Stream.subscribe (t : Stream υ) (each : υ → Option Fault) (w : World υ) :
    Stream υ × World υ × Except Fault Nat :=
  let w := w.note (Factory.activity t)
  match Factory.next t with
  | .factoryRaises f => (Factory.called t, w, .error f)
  | .source script =>
    let collection := script.cursor.collect each (script.items.length + 1)
    (Factory.called t, (w.submit collection.submission).note collection.activity,
      .ok w.submissions.length)

end SyncFacade
