import SyncFacade.Proofs.Execution.Consumption

/-! How an iteration leaves its source: at its end, at its failure, or where the consumer stops. Whatever the consumer
demands after that, nothing more is asked of the source, and it has been closed once unless it had come to its end. -/
namespace SyncFacade

variable {υ : Type}

/-- What a consumer demands of an iteration: an item, or that it ends, which an error brings about as well. -/
inductive Demand where
  | next
  | close
  | throw (f : Fault)
deriving DecidableEq

def Next.item? : Next υ → Option υ
  | .item v => some v
  | _ => none

namespace Iteration

def serve (it : Iteration υ) (t : Stream υ) (w : World υ) : Demand → Stream υ × World υ × Iteration υ × Next υ
  | .next => it.next t w
  | .close =>
    let (w, closing) := it.close w
    (t, w, .over, closing.elim .ended .failed)
  | .throw f =>
    let (w, raised) := it.throw f w
    (t, w, .over, .failed raised)

/-- Answer one demand after the other. -/
def serveAll (it : Iteration υ) (t : Stream υ) (w : World υ) :
    List Demand → Stream υ × World υ × Iteration υ × List (Next υ)
  | [] => (t, w, it, [])
  | demand :: demands =>
    let (t, w, it, answer) := serve it t w demand
    let (t, w, it, answers) := serveAll it t w demands
    (t, w, it, answer :: answers)

end Iteration

/-- Whether something is asked of a source or of its factory. All else the source does by itself. -/
def Activity.isRequest : Activity → Bool
  | .made _ | .asked | .closing => true
  | .started | .cancelled | .finalised => false

/-- What was asked so far, oldest first. -/
def World.requests (w : World υ) : List Activity := w.activity.filter Activity.isRequest

theorem World.requests_note (w : World υ) (activity : List Activity) :
    (w.note activity).requests = w.requests ++ activity.filter Activity.isRequest := List.filter_append ..

theorem World.requests_enter_note (w : World υ) (activity : List Activity) :
    (w.enter.1.note activity).requests = w.requests ++ activity.filter Activity.isRequest :=
  World.requests_note ..

/-- Whether a source fails behind its items, which an error that is its regular end does not make it do. -/
def StreamScript.fails (s : StreamScript υ) : Bool :=
  match s.finish with
  | .raises f => s.kind = .generator || f.kind ≠ .stopAsyncIteration
  | _ => false

theorem StreamScript.outside_raised {s : StreamScript υ} {f : Fault} (raises : s.finish = .raises f) :
    if s.fails then ∃ e, (s.kind.outside f : Advance υ) = .failed e else (s.kind.outside f : Advance υ) = .ended := by
  cases kind : s.kind with
  | generator => simp [fails, raises, kind, StreamKind.outside]
  | iterator => by_cases regular : f.kind = .stopAsyncIteration <;> simp [fails, raises, kind, StreamKind.outside, regular]

namespace Cursor

variable {c : Cursor υ}

theorem requests_beginning (c : Cursor υ) :
    (.asked :: c.beginning : List Activity).filter Activity.isRequest = [.asked] := by
  unfold beginning
  split <;> rfl

theorem requests_ending (c : Cursor υ) :
    (.asked :: c.beginning ++ [.finalised] : List Activity).filter Activity.isRequest = [.asked] := by
  rw [List.filter_append, requests_beginning]
  rfl

/-- A source that is left is closed if it can be, whether it has anything to do then or not. -/
theorem requests_abandon (c : Cursor υ) (w : World υ) :
    (c.abandon w).1.requests = w.requests ++ if c.script.closable then [.closing] else [] := by
  by_cases closable : c.script.closable
  · have closing : c.close.2.2.filter Activity.isRequest = [.closing] := by
      unfold close
      dsimp only
      split <;> rfl
    simp only [abandon, isClosable, closable, if_true]
    rw [World.requests_enter_note, closing]
  · simp [abandon, isClosable, closable]

theorem next_of_left (unfinished : c.phase ≠ .finished) {v : υ} {later : List υ} (left : c.left = v :: later)
    (w : World υ) : ∃ w', c.next w = (w', .between { c with left := later, phase := .suspended }, .item v) ∧
      w'.requests = w.requests ++ [.asked] := by
  refine ⟨_, by rw [next, advance_item unfinished left], ?_⟩
  rw [World.requests_enter_note, requests_beginning]

/-- Behind the last item an iteration is over. Only a failure makes it close its source. -/
theorem next_of_nothing_left (settled : c.script.finish ≠ .hangs) (unfinished : c.phase ≠ .finished)
    (left : c.left = []) (w : World υ) : ∃ w' answer, c.next w = (w', .over, answer) ∧ answer.item? = none ∧
      w'.requests = w.requests ++ .asked ::
        if c.script.closable ∧ c.script.fails then [.closing] else [] := by
  have asked := (World.requests_enter_note w (.asked :: c.beginning ++ [.finalised])).trans
    (congrArg (_ ++ ·) c.requests_ending)
  cases finish : c.script.finish with
  | hangs => exact absurd finish settled
  | ends =>
    have regular : c.script.fails = false := by simp [StreamScript.fails, finish]
    refine ⟨_, .ended, ?_, rfl, by simpa [regular] using asked⟩
    simp [next, advance, unfinished, left, finish]
  | raises f =>
    have out := StreamScript.outside_raised finish
    by_cases fails : c.script.fails = true
    · rw [if_pos fails] at out
      obtain ⟨e, out⟩ := out
      have failed : c.advance = (.failed e, c.finished, .asked :: c.beginning ++ [.finalised]) := by
        simp [advance, unfinished, left, finish, out]
      refine ⟨_, .failed _, by rw [next, failed], rfl, ?_⟩
      simp only [fails, and_true]
      rw [requests_abandon, asked, List.append_assoc]
      rfl
    · rw [if_neg fails] at out
      refine ⟨_, .ended, ?_, rfl, by simpa [fails] using asked⟩
      simp [next, advance, unfinished, left, finish, out]

end Cursor

namespace Iteration

/-- An iteration that is over stays so, and leaves its source alone. -/
theorem serveAll_over (t : Stream υ) (w : World υ) (demands : List Demand) :
    ∃ answers, serveAll .over t w demands = (t, w, .over, answers) ∧ answers.filterMap Next.item? = [] := by
  induction demands with
  | nil => exact ⟨[], rfl, rfl⟩
  | cons demand demands ih =>
    obtain ⟨answers, rest, none⟩ := ih
    have first : ∃ answer, serve .over t w demand = (t, w, .over, answer) ∧ answer.item? = Option.none := by
      cases demand with
      | next => exact ⟨.ended, rfl, rfl⟩
      | close => exact ⟨.ended, rfl, rfl⟩
      | throw f => exact ⟨.failed f, rfl, rfl⟩
    obtain ⟨answer, served, silent⟩ := first
    refine ⟨answer :: answers, ?_, by rw [List.filterMap_cons_none silent, none]⟩
    rw [serveAll, served]
    dsimp only
    rw [rest]

theorem serve_stop (t : Stream υ) (w : World υ) (c : Cursor υ) {stop : Demand} (stops : stop ≠ .next) :
    ∃ answer, serve (.between c) t w stop = (t, (c.abandon w).1, .over, answer) ∧ answer.item? = none := by
  have silent (closing : Option Fault) : (closing.elim .ended .failed : Next υ).item? = none := by
    cases closing <;> rfl
  cases stop with
  | next => contradiction
  | close => exact ⟨_, rfl, silent _⟩
  | throw f => exact ⟨_, rfl, rfl⟩

/-- From any item on: so many further items are demanded, and then a stop. -/
theorem serveAll_between {c : Cursor υ} (settled : c.script.finish ≠ .hangs) (unfinished : c.phase ≠ .finished)
    (t : Stream υ) (w : World υ) (n : Nat) {stop : Demand} (stops : stop ≠ .next) (later : List Demand) :
    ∃ w' answers, serveAll (.between c) t w (List.replicate n .next ++ stop :: later) = (t, w', .over, answers) ∧
      answers.filterMap Next.item? = c.left.take n ∧
      w'.requests = w.requests ++ List.replicate (min n (c.left.length + 1)) .asked ++
        if c.script.closable ∧ (n ≤ c.left.length ∨ c.script.fails) then [.closing] else [] := by
  induction n generalizing c w with
  | zero =>
    obtain ⟨answer, stopped, silent⟩ := serve_stop t w c stops
    obtain ⟨answers, rest, none⟩ := serveAll_over t (c.abandon w).1 later
    refine ⟨(c.abandon w).1, answer :: answers, ?_, ?_, ?_⟩
    · rw [List.replicate_zero, List.nil_append, serveAll, stopped]
      dsimp only
      rw [rest]
    · rw [List.filterMap_cons_none silent, none, List.take_zero]
    · simpa using c.requests_abandon w
  | succ n ih =>
    cases left : c.left with
    | nil =>
      obtain ⟨w', answer, last, silent, requests⟩ := Cursor.next_of_nothing_left settled unfinished left w
      obtain ⟨answers, rest, none⟩ := serveAll_over t w' (List.replicate n .next ++ stop :: later)
      refine ⟨w', answer :: answers, ?_, ?_, ?_⟩
      · rw [List.replicate_succ, List.cons_append, serveAll, serve, next, last]
        dsimp only
        rw [rest]
      · rw [List.filterMap_cons_none silent, none, List.take_nil]
      · simp [requests]
    | cons v others =>
      obtain ⟨between, first, asked⟩ := Cursor.next_of_left unfinished left w
      have suspended : Phase.suspended ≠ .finished := by simp
      obtain ⟨w', answers, rest, items, requests⟩ :=
        @ih { c with left := others, phase := .suspended } settled suspended between
      refine ⟨w', .item v :: answers, ?_, ?_, ?_⟩
      · rw [List.replicate_succ, List.cons_append, serveAll, serve, next, first]
        dsimp only
        rw [rest]
      · rw [List.filterMap_cons_some (f := Next.item?) (b := v) rfl, items, List.take_succ_cons]
      · have count : min (n + 1) ((v :: others).length + 1) = min n (others.length + 1) + 1 := by
          rw [List.length_cons, Nat.add_min_add_right]
        have within : n + 1 ≤ (v :: others).length ↔ n ≤ others.length := by simp
        rw [requests, asked, count, List.replicate_succ]
        simp only [within, List.append_assoc, List.cons_append, List.nil_append]

/-- The run of an iteration whose consumer demands so many items and stops. -/
structure ClosesProperly (script : StreamScript υ) (count : Nat) (t : Stream υ) (w w' : World υ) (answers : List (Next υ)) :
    Prop where
  items : answers.filterMap Next.item? = script.items.take count
  requests : w'.requests = w.requests ++ .made (t.calls + 1) ::
    List.replicate (min count (script.items.length + 1)) .asked ++
      if script.closable ∧ (count ≤ script.items.length ∨ script.fails) then [.closing] else []

end Iteration

/-- A consumer demands an item or more, stops, and may demand what it likes after that. The iteration makes one source,
hands out the items in their order, and asks the source for no more than these and what follows them. It closes a source
that can be closed once, after all else, if the consumer stopped at an item or the source failed, and never if the
source came to its end. -/
theorem Stream.iteration_closes_properly {t : Stream υ} {script : StreamScript υ}
    (made : Factory.next t = .source script) (settled : script.finish ≠ .hangs) (n : Nat) {stop : Demand}
    (stops : stop ≠ .next) (later : List Demand) (w : World υ) : ∃ w' answers,
      Iteration.serveAll .unopened t w (List.replicate (n + 1) .next ++ stop :: later) =
        (Factory.called t, w', .over, answers) ∧
      Iteration.ClosesProperly script (n + 1) t w w' answers := by
  obtain ⟨w', answers, run, items, requests⟩ := Iteration.serveAll_between (c := script.cursor) settled nofun
    (Factory.called t) (w.note (Factory.activity t)) (n + 1) stops later
  have opened : Iteration.serve .unopened t w .next =
      Iteration.serve (.between script.cursor) (Factory.called t) (w.note (Factory.activity t)) .next := by
    simp only [Iteration.serve, Iteration.next, made]
  refine ⟨w', answers, ?_, items, ?_⟩
  · rw [← run, List.replicate_succ, List.cons_append, Iteration.serveAll, opened]
    rfl
  · have made : (Factory.activity t).filter Activity.isRequest = [.made (t.calls + 1)] := rfl
    rw [requests, World.requests_note, made, List.append_assoc w.requests, List.singleton_append]
    rfl

/-- An object of a class that is lost behind its second item, and cannot be closed without an error. -/
def brokenScript : StreamScript Nat where
  items := [1, 2]
  finish := .raises (.ofRuntime "lost")
  kind := .iterator
  closeRaises := some (.ofRuntime "stuck")
  closable := true
  closable_of_generator := fun _ => rfl

/-- No one has asked for what follows the last item, so the source is closed. -/
theorem brokenScript_closes_properly :
    Factory.next (⟨.source brokenScript, [], 0⟩ : Stream Nat) = .source brokenScript ∧
      brokenScript.finish ≠ .hangs ∧ Demand.close ≠ .next ∧ ∃ w' answers,
        Iteration.serveAll .unopened ⟨.source brokenScript, [], 0⟩ {} (List.replicate 2 .next ++ [.close, .next]) =
          (⟨.source brokenScript, [], 1⟩, w', .over, answers) ∧
        Iteration.ClosesProperly brokenScript 2 ⟨.source brokenScript, [], 0⟩ {} w' answers := by
  have settled : brokenScript.finish ≠ .hangs := nofun
  have stops : Demand.close ≠ .next := nofun
  exact ⟨rfl, settled, stops, Stream.iteration_closes_properly rfl settled 1 stops [.next] {}⟩

end SyncFacade
