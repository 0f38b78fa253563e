import SyncFacade.Execution.Fault
import SyncFacade.Log

/-! Execution scopes: an event loop in a thread of its own, started when it is first needed and started
anew after it was closed or its thread died. -/
namespace SyncFacade

/-- What a scope records, the thread, its loop and the event that stops it, and the threads that are alive.
Threads are numbered in the order they start. The loop of a thread and the event it waits for have its
number, and the loop is closed when the thread has ended. -/
structure ExecutionScope where
  thread : Option Nat := none
  loop : Option Nat := none
  stopping : Option Nat := none
  started : Nat := 0
  alive : List Nat := []
deriving DecidableEq

/-- What keeps a scope from being closed: something is asked for a method, and nothing is recorded there, or
the thread that is waited for does not end. -/
inductive Hindrance where
  | missing (method : String)
  | endless
deriving DecidableEq

/-- The error that a hindrance is. A wait that does not end is none. -/
def Hindrance.fault? : Hindrance → Option Fault
  | .missing method =>
    some { kind := .other "AttributeError", message := "'NoneType' object has no attribute '" ++ method ++ "'" }
  | .endless => none

namespace ExecutionScope

/-- Whether a thread is recorded, which may have died since. -/
def isRunning (s : ExecutionScope) : Bool := s.thread.isSome

def hasDied (s : ExecutionScope) : Bool := s.thread.any fun t => !s.alive.contains t

def forget (s : ExecutionScope) : ExecutionScope := { s with thread := none, loop := none }

/-- Start a thread. It records its loop and the event that stops it before it is recorded itself. -/
def start (s : ExecutionScope) : ExecutionScope :=
  { thread := some s.started, loop := some s.started, stopping := some s.started
    started := s.started + 1, alive := s.started :: s.alive }

def threadDied : Record :=
  { level := .warning, channel := .runtime, message := "Execution scope thread died, starting a new one" }

/-- The scope without a dead thread, and the warning about it. -/
def recover (s : ExecutionScope) : List Record × ExecutionScope :=
  if s.hasDied then ([threadDied], s.forget) else ([], s)

/-- A loop to run something on: the recorded one, or that of a thread started for it. -/
def acquire (s : ExecutionScope) : List Record × ExecutionScope × Nat :=
  let (records, s) := s.recover
  match s.loop with
  | some l => (records, s, l)
  | none => (records, s.start, s.started)

def ended (s : ExecutionScope) (t : Nat) : ExecutionScope := { s with alive := s.alive.erase t }

/-- The scope after its thread has ended by itself. -/
def die (s : ExecutionScope) : ExecutionScope :=
  match s.thread with
  | some t => s.ended t
  | none => s

/-- Have the recorded loop set the event that stops its thread, unless the loop is closed. The thread cancels
the calls under way before it ends, and it is assumed that they give way: a call that never returns would
keep the thread alive, and its closing waiting. -/
def stop (s : ExecutionScope) : Except Hindrance ExecutionScope :=
  match s.loop with
  | none => .error (.missing "is_closed")
  | some l =>
    if s.alive.contains l then
      match s.stopping with
      | some t => .ok (s.ended t)
      | none => .error (.missing "set")
    else .ok s

/-- Wait until a thread has ended. -/
def join (s : ExecutionScope) (t : Nat) : Except Hindrance ExecutionScope :=
  if s.alive.contains t then .error .endless else .ok s

def close (s : ExecutionScope) : Except Hindrance ExecutionScope :=
  match s.thread with
  | some t => do
    let s ← s.stop
    let s ← s.join t
    return s.forget
  | none => .ok s

end ExecutionScope
end SyncFacade
