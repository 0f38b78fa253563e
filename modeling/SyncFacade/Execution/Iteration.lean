import SyncFacade.Execution.Stream

/-! Iteration over a stream without awaiting: each item is asked for in turn, and a source that is left
before its end is closed. -/
namespace SyncFacade

/-- An iteration: nothing has run yet, or it waits between two items, or it is over. -/
inductive Iteration (υ : Type) where
  | unopened
  | between (c : Cursor υ)
  | over

/-- The answer of an iteration to the demand for an item. -/
inductive Next (υ : Type) where
  | item (v : υ)
  | ended
  | failed (f : Fault)
  | pending

variable {υ : Type}

namespace Cursor

/-- Leave a source: close it if it can be closed. The result is the error of closing it. -/
def abandon (c : Cursor υ) (w : World υ) : World υ × Option Fault :=
  if c.isClosable then
    let (failure, _, activity) := c.close
    (w.enter.1.note activity, failure.map Failure.raised)
  else (w, none)

/-- Ask a source for the next item. A failure of the source leaves it; the error of closing wins. -/
def next (c : Cursor υ) (w : World υ) : World υ × Iteration υ × Next υ :=
  let (step, c, activity) := c.advance
  let w := w.enter.1.note activity
  match step with
  | .item v => (w, .between c, .item v)
  | .ended => (w, .over, .ended)
  | .pending => (w, .between c, .pending)
  | .failed e =>
    let (w, closing) := c.abandon w
    (w, .over, .failed (closing.getD e.raised))

end Cursor

namespace Iteration

/-- Ask for the next item. The first demand makes the source. -/
def next (it : Iteration υ) (t : Stream υ) (w : World υ) : Stream υ × World υ × Iteration υ × Next υ :=
  match it with
  | .over => (t, w, .over, .ended)
  | .between c => (t, c.next w)
  | .unopened =>
    let w := w.note (Factory.activity t)
    match Factory.next t with
    | .factoryRaises f => (Factory.called t, w, .over, .failed f.outsideGenerator)
    | .source script => (Factory.called t, script.cursor.next w)

/-- End an iteration. The result is the error of closing its source. -/
def close (it : Iteration υ) (w : World υ) : World υ × Option Fault :=
  match it with
  | .between c => c.abandon w
  | _ => (w, none)

/-- Raise an error where an iteration waits. The result is the error that comes out. -/
def throw (it : Iteration υ) (f : Fault) (w : World υ) : World υ × Fault :=
  match it with
  | .unopened => (w, f.outsideGenerator)
  | .over => (w, f)
  | .between c =>
    let (w, closing) := c.abandon w
    (w, closing.getD f.outsideGenerator)

end Iteration

inductive Ending where
  | exhausted
  | stopped
  | failed (f : Fault)
  | pending
deriving DecidableEq

/-- Take up to so many items, and close the iteration without asking for another one. -/
def Iteration.take (t : Stream υ) : Nat → Iteration υ → World υ → Stream υ × World υ × List υ × Ending
  | 0, it, w =>
    let (w, closing) := it.close w
    (t, w, [], (closing.map Ending.failed).getD .stopped)
  | n + 1, it, w =>
    match it.next t w with
    | (t, w, it, .item v) =>
      let (t, w, items, ending) := take t n it w
      (t, w, v :: items, ending)
    | (t, w, _, .ended) => (t, w, [], .exhausted)
    | (t, w, _, .failed f) => (t, w, [], .failed f)
    | (t, w, _, .pending) => (t, w, [], .pending)

/-- Iterate over a stream: up to the given number of items, or to its end. -/
def Stream.iterate (t : Stream υ) (limit : Option Nat) (w : World υ) :
    Stream υ × World υ × List υ × Ending :=
  Iteration.take t (limit.getD ((Factory.next t).itemCount + 1)) .unopened w

end SyncFacade
