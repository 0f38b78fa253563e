import SyncFacade.Execution.Iteration
import Mathlib.Data.List.Forall2

/-! The two ways to consume a stream. A subscription is called back for the items and for what follows them; an
iteration asks for the items one by one. Over sources that do the same each time they are made, both give the same
items and the same end, however often and in whatever order they are used, and each use makes one source. -/
namespace SyncFacade

variable {υ : Type}

/-- An error that no frame gives a meaning to. It comes out as it went in. -/
def Fault.IsPlain (f : Fault) : Prop :=
  f.kind.isOrdinary ∧ f.kind ∉ [.stopIteration, .stopAsyncIteration, .cancelledOutcome]

instance (f : Fault) : Decidable f.IsPlain := inferInstanceAs (Decidable (_ ∧ _))

theorem Fault.IsPlain.outsideCoroutine {f : Fault} (plain : f.IsPlain) : f.outsideCoroutine = .fault f := by
  obtain ⟨ordinary, other⟩ := plain
  unfold Fault.outsideCoroutine
  split <;> simp_all [FaultKind.isOrdinary]

theorem Fault.IsPlain.outside {f : Fault} (plain : f.IsPlain) (kind : StreamKind) :
    kind.outside f = (.failed (.fault f) : Advance υ) := by
  have coroutine := plain.outsideCoroutine
  obtain ⟨ordinary, other⟩ := plain
  cases kind with
  | generator =>
    have generator : f.outsideAsyncGenerator = .fault f := by
      unfold Fault.outsideAsyncGenerator
      split <;> simp_all [FaultKind.isOrdinary]
    rw [StreamKind.outside, generator]
  | iterator =>
    have regular : f.kind ≠ .stopAsyncIteration := by
      rintro same
      simp [same] at other
    simp [StreamKind.outside, regular, coroutine]

/-- Closing a source behind its end raises nothing. A generator has nothing to do then. -/
def StreamScript.ClosesQuietly (s : StreamScript υ) : Prop := s.kind = .iterator → s.closable → s.closeRaises = none

/-! The end of a stream as each part sees it. A stream is exhausted if it has no failure. -/

def Finish.of : Option Fault → Finish
  | none => .ends
  | some f => .raises f

def Advance.of : Option Fault → Advance υ
  | none => .ended
  | some f => .failed (.fault f)

def Conclusion.of : Option Fault → Conclusion
  | none => .complete
  | some f => .failed (.fault f)

def Event.of : Option Fault → Event υ
  | none => .complete
  | some f => .error f

def Next.of : Option Fault → Next υ
  | none => .ended
  | some f => .failed f

def Ending.of : Option Fault → Ending
  | none => .exhausted
  | some f => .failed f

def Activity.isMade : Activity → Bool
  | .made _ => true
  | _ => false

/-- The sources made so far. -/
def World.makings (w : World υ) : List Activity := w.activity.filter Activity.isMade

theorem World.makings_note (w : World υ) (activity : List Activity) :
    (w.note activity).makings = w.makings ++ activity.filter Activity.isMade := List.filter_append ..

/-- No subscription is touched, and no source is made. -/
structure World.Untouched (w w' : World υ) : Prop where
  submissions : w'.submissions = w.submissions
  makings : w'.makings = w.makings

theorem World.Untouched.trans {w w' w'' : World υ} (first : w.Untouched w') (second : w'.Untouched w'') :
    w.Untouched w'' :=
  ⟨second.submissions.trans first.submissions, second.makings.trans first.makings⟩

theorem World.untouched_enter_note (w : World υ) {activity : List Activity}
    (quiet : activity.filter Activity.isMade = []) : w.Untouched (w.enter.1.note activity) :=
  ⟨rfl, by rw [makings_note, quiet, List.append_nil]; rfl⟩

namespace Cursor

section Advancing

variable {c : Cursor υ} {failure : Option Fault}

theorem beginning_quiet (c : Cursor υ) : (.asked :: c.beginning : List Activity).filter Activity.isMade = [] := by
  unfold beginning
  split <;> rfl

theorem ending_quiet (c : Cursor υ) :
    (.asked :: c.beginning ++ [.finalised] : List Activity).filter Activity.isMade = [] := by
  rw [List.filter_append, beginning_quiet]
  rfl

theorem advance_item (unfinished : c.phase ≠ .finished) {v : υ} {later : List υ} (left : c.left = v :: later) :
    c.advance = (.item v, { c with left := later, phase := .suspended }, .asked :: c.beginning) := by
  simp [advance, unfinished, left]

theorem advance_last (plain : ∀ f ∈ failure, f.IsPlain) (finish : c.script.finish = .of failure)
    (unfinished : c.phase ≠ .finished) (left : c.left = []) :
    c.advance = (.of failure, c.finished, .asked :: c.beginning ++ [.finalised]) := by
  cases failure with
  | none => simp [advance, unfinished, left, finish, Finish.of, Advance.of]
  | some f =>
    have out : c.script.kind.outside f = (.failed (.fault f) : Advance υ) := (plain f rfl).outside _
    simp [advance, unfinished, left, finish, Finish.of, Advance.of, out]

/-- A subscription is called back for all items that are left, and concludes as the stream ends. -/
theorem collect_left {each : υ → Option Fault} (quiet : ∀ v, each v = none) (plain : ∀ f ∈ failure, f.IsPlain)
    (finish : c.script.finish = .of failure) (unfinished : c.phase ≠ .finished) :
    (c.collect each (c.left.length + 1)).events = c.left.map .each ∧
      (c.collect each (c.left.length + 1)).conclusion = .of failure ∧
      (c.collect each (c.left.length + 1)).activity.filter Activity.isMade = [] := by
  generalize remaining : c.left = left
  induction left generalizing c with
  | nil =>
    have last := c.ending_quiet
    rw [collect, advance_last plain finish unfinished remaining]
    cases failure with
    | none => exact ⟨rfl, rfl, last⟩
    | some f => exact ⟨rfl, rfl, last⟩
  | cons v later ih =>
    obtain ⟨events, conclusion, activity⟩ :=
      @ih { c with left := later, phase := .suspended } finish nofun rfl
    rw [List.length_cons, collect, advance_item unfinished remaining]
    dsimp only
    rw [quiet v]
    refine ⟨?_, conclusion, ?_⟩
    · rw [List.map_cons, ← events]
    · rw [List.filter_append, beginning_quiet, List.nil_append]
      exact activity

@[simp] theorem finished_script (c : Cursor υ) : c.finished.script = c.script := rfl

@[simp] theorem finished_phase (c : Cursor υ) : c.finished.phase = .finished := rfl

/-- A source that has come to its end and closes quietly has nothing to say when it is left. -/
theorem abandon_finished {c : Cursor υ} (quietly : c.script.ClosesQuietly) (w : World υ) :
    (c.finished.abandon w).2 = none ∧ w.Untouched (c.finished.abandon w).1 := by
  by_cases closable : c.script.closable
  · have silent : c.finished.closingError = none := by
      cases kind : c.script.kind with
      | generator => simp [closingError, kind]
      | iterator => simp [closingError, kind, quietly kind closable]
    have abandoned : c.finished.abandon w = (w.enter.1.note [.closing], none) := by
      simp [abandon, isClosable, close, silent, closable]
    rw [abandoned]
    exact ⟨rfl, w.untouched_enter_note rfl⟩
  · have abandoned : c.finished.abandon w = (w, none) := by
      simp [abandon, isClosable, closable]
    rw [abandoned]
    exact ⟨rfl, rfl, rfl⟩

theorem next_item (unfinished : c.phase ≠ .finished) {v : υ} {later : List υ} (left : c.left = v :: later)
    (w : World υ) : ∃ w', c.next w = (w', .between { c with left := later, phase := .suspended }, .item v) ∧
      w.Untouched w' := by
  refine ⟨_, ?_, w.untouched_enter_note c.beginning_quiet⟩
  rw [next, advance_item unfinished left]

theorem next_last (plain : ∀ f ∈ failure, f.IsPlain) (finish : c.script.finish = .of failure)
    (quietly : c.script.ClosesQuietly) (unfinished : c.phase ≠ .finished) (left : c.left = []) (w : World υ) :
    ∃ w', c.next w = (w', .over, .of failure) ∧ w.Untouched w' := by
  have asked := w.untouched_enter_note c.ending_quiet
  rw [next, advance_last plain finish unfinished left]
  cases failure with
  | none => exact ⟨_, rfl, asked⟩
  | some f =>
    obtain ⟨silent, left⟩ := abandon_finished quietly (w.enter.1.note (.asked :: c.beginning ++ [.finalised]))
    refine ⟨_, ?_, asked.trans left⟩
    dsimp only [Advance.of]
    rw [silent]
    rfl

end Advancing
end Cursor

section Iterating

variable {c : Cursor υ} {failure : Option Fault}

/-- An iteration yields all items that are left, and ends as the stream does. -/
theorem Iteration.take_left (plain : ∀ f ∈ failure, f.IsPlain) (finish : c.script.finish = .of failure)
    (quietly : c.script.ClosesQuietly) (unfinished : c.phase ≠ .finished) (t : Stream υ) (w : World υ) :
    ∃ w', take t (c.left.length + 1) (.between c) w = (t, w', c.left, .of failure) ∧ w.Untouched w' := by
  generalize remaining : c.left = left
  induction left generalizing c w with
  | nil =>
    obtain ⟨w', last, untouched⟩ := Cursor.next_last plain finish quietly unfinished remaining w
    refine ⟨w', ?_, untouched⟩
    rw [take, next, last]
    cases failure with
    | none => rfl
    | some f => rfl
  | cons v later ih =>
    obtain ⟨between, first, asked⟩ := Cursor.next_item unfinished remaining w
    obtain ⟨w', rest, untouched⟩ :=
      @ih { c with left := later, phase := .suspended } finish quietly nofun between rfl
    refine ⟨w', ?_, asked.trans untouched⟩
    rw [List.length_cons, take, next, first]
    dsimp only
    rw [rest]

/-- The first demand makes the source, and is then a demand to it. -/
theorem Iteration.take_unopened {t : Stream υ} {script : StreamScript υ} (made : Factory.next t = .source script)
    (n : Nat) (w : World υ) :
    take t (n + 1) .unopened w = take (Factory.called t) (n + 1) (.between script.cursor)
      (w.note (Factory.activity t)) := by
  rw [take, take, next, next]
  dsimp only
  rw [made]

end Iterating

namespace Stream

/-- Whatever source is made, it has the same items, fails in the same way or not at all, and closes quietly behind its
end. It may be of either kind. -/
def Steady (t : Stream υ) (items : List υ) (failure : Option Fault) : Prop :=
  ∀ o ∈ t.first :: t.rest, ∃ script, o = .source script ∧ script.items = items ∧ script.finish = .of failure ∧
    script.ClosesQuietly

end Stream

theorem Factory.next_mem {ω : Type} (f : Factory ω) : Factory.next f ∈ f.first :: f.rest := by
  unfold Factory.next
  rw [List.getD_eq_getElem?_getD]
  cases found : (f.first :: f.rest)[f.calls]? with
  | none => exact List.getLast_mem _
  | some o => exact List.mem_of_getElem? found

/-- A use of a stream: a subscription with a callback for items, or an iteration to the end. -/
inductive Consumption (υ : Type) where
  | subscription (each : υ → Option Fault)
  | iteration

namespace Consumption

def isSubscription : Consumption υ → Bool
  | .subscription _ => true
  | .iteration => false

/-- The callback for items does not fail. -/
def IsQuiet : Consumption υ → Prop
  | .subscription each => ∀ v, each v = none
  | .iteration => True

end Consumption

/-- What a use of a stream gives: the place of a submission, or items and how they end. -/
inductive Consumed (υ : Type) where
  | submitted (started : Except Fault Nat)
  | iterated (items : List υ) (ending : Ending)

def Consumed.place? : Consumed υ → Option Nat
  | .submitted started => started.toOption
  | .iterated _ _ => none

namespace Stream

def consume (t : Stream υ) (w : World υ) : Consumption υ → Stream υ × World υ × Consumed υ
  | .subscription each =>
    let (t, w, started) := Stream.subscribe t each w
    (t, w, .submitted started)
  | .iteration =>
    let (t, w, items, ending) := Stream.iterate t none w
    (t, w, .iterated items ending)

/-- Use a stream again and again. -/
def consumeAll (t : Stream υ) (w : World υ) : List (Consumption υ) → Stream υ × World υ × List (Consumed υ)
  | [] => (t, w, [])
  | use :: uses =>
    let (t, w, got) := consume t w use
    let (t, w, rest) := consumeAll t w uses
    (t, w, got :: rest)

end Stream

/-- What a use gives of a stream with the given items and end: a submission that has made its callbacks, or the
items and the end themselves. -/
inductive Serves (w : World υ) (items : List υ) (failure : Option Fault) : Consumption υ → Consumed υ → Prop where
  | subscription {each : υ → Option Fault} {place : Nat} {s : Submission υ} (found : w.submissions[place]? = some s)
      (finished : s.future = .finished) (events : s.events = items.map .each ++ [.of failure]) :
      Serves w items failure (.subscription each) (.submitted (.ok place))
  | iteration : Serves w items failure .iteration (.iterated items (.of failure))

/-- All uses of a stream give the same. A subscription has a submission of its own, and each use makes one source. -/
structure Consumes (items : List υ) (failure : Option Fault) (uses : List (Consumption υ)) (t : Stream υ) (w : World υ)
    (t' : Stream υ) (w' : World υ) (got : List (Consumed υ)) : Prop where
  served : List.Forall₂ (Serves w' items failure) uses got
  own : got.filterMap Consumed.place? =
    List.range' w.submissions.length (uses.countP Consumption.isSubscription)
  kept : w.submissions <+: w'.submissions
  counted : w'.submissions.length = w.submissions.length + uses.countP Consumption.isSubscription
  made : w'.makings = w.makings ++ (List.range' (t.calls + 1) uses.length).map .made
  called : t' = { t with calls := t.calls + uses.length }

section Uses

variable {items : List υ} {failure : Option Fault} {t t₁ t' : Stream υ} {w w₁ w' : World υ}

theorem Serves.later {use : Consumption υ} {got : Consumed υ} (serves : Serves w items failure use got)
    (kept : w.submissions <+: w'.submissions) : Serves w' items failure use got := by
  cases serves with
  | subscription found finished events =>
    obtain ⟨bound, here⟩ := List.getElem?_eq_some_iff.mp found
    have still := List.prefix_iff_getElem?.mp kept _ bound
    exact .subscription (still.trans (congrArg some here)) finished events
  | iteration => exact .iteration

theorem Consumes.nil (t : Stream υ) (w : World υ) : Consumes items failure [] t w t w [] where
  served := .nil
  own := rfl
  kept := List.prefix_rfl
  counted := rfl
  made := (List.append_nil _).symm
  called := rfl

theorem Consumes.cons {use : Consumption υ} {uses : List (Consumption υ)} {got : Consumed υ}
    {rest : List (Consumed υ)} (first : Consumes items failure [use] t w t₁ w₁ [got])
    (later : Consumes items failure uses t₁ w₁ t' w' rest) :
    Consumes items failure (use :: uses) t w t' w' (got :: rest) where
  served := by
    have .cons served .nil := first.served
    exact .cons (served.later later.kept) later.served
  own :=
    calc (got :: rest).filterMap Consumed.place?
        = [got].filterMap Consumed.place? ++ rest.filterMap Consumed.place? := List.filterMap_append (l := [got])
      _ = List.range' w.submissions.length ([use].countP Consumption.isSubscription + uses.countP _) := by
          rw [first.own, later.own, first.counted, List.range'_append_1]
      _ = List.range' w.submissions.length ((use :: uses).countP _) := by
          rw [← List.countP_append, List.singleton_append]
  kept := first.kept.trans later.kept
  counted := by
    rw [later.counted, first.counted, Nat.add_assoc, ← List.countP_append, List.singleton_append]
  made := by
    have next : t₁.calls = t.calls + 1 := by rw [first.called]; rfl
    rw [later.made, first.made, next, List.append_assoc, ← List.map_append, List.length_singleton,
      Nat.add_right_comm, List.range'_append_1, List.length_cons, Nat.add_comm 1]
  called := by
    rw [later.called, first.called, List.length_singleton, List.length_cons, Nat.add_assoc, Nat.add_comm 1]

theorem Collection.submission_of {k : Collection υ} (conclusion : k.conclusion = .of failure) (loop : Nat) :
    k.submission loop = { loop, future := .finished, events := k.events ++ [.of failure] } := by
  rw [submission, conclusion]
  cases failure with
  | none => rfl
  | some f => rfl

theorem Stream.subscribe_steady (steady : t.Steady items failure) (plain : ∀ f ∈ failure, f.IsPlain)
    {each : υ → Option Fault} (quiet : ∀ v, each v = none) (w : World υ) :
    ∃ w', t.subscribe each w = (Factory.called t, w', .ok w.submissions.length) ∧
      Consumes items failure [.subscription each] t w (Factory.called t) w'
        [.submitted (.ok w.submissions.length)] := by
  obtain ⟨script, source, rfl, finish, _⟩ := steady _ (Factory.next_mem t)
  obtain ⟨events, conclusion, activity⟩ :=
    Cursor.collect_left (c := script.cursor) quiet plain finish nofun
  have subscribed : t.subscribe each w = (Factory.called t,
      ((w.note (Factory.activity t)).submit (script.cursor.collect each (script.items.length + 1)).submission).note
        (script.cursor.collect each (script.items.length + 1)).activity, .ok w.submissions.length) := by
    rw [subscribe, source]
    rfl
  refine ⟨_, subscribed, ?_⟩
  exact {
    served := by
      refine .cons (.subscription List.getElem?_concat_length ?_ ?_) .nil
      · exact congrArg Submission.future (Collection.submission_of conclusion _)
      · exact (congrArg Submission.events (Collection.submission_of conclusion _)).trans
          (congrArg (· ++ [.of failure]) events)
    own := rfl
    kept := List.prefix_append ..
    counted := List.length_append
    made := by
      rw [World.makings_note]
      exact (congrArg (_ ++ ·) activity).trans ((List.append_nil _).trans (World.makings_note ..))
    called := rfl }

theorem Stream.iterate_steady (steady : t.Steady items failure) (plain : ∀ f ∈ failure, f.IsPlain) (w : World υ) :
    ∃ w', t.iterate none w = (Factory.called t, w', items, .of failure) ∧
      Consumes items failure [.iteration] t w (Factory.called t) w' [.iterated items (.of failure)] := by
  obtain ⟨script, source, rfl, finish, quietly⟩ := steady _ (Factory.next_mem t)
  obtain ⟨w', taken, untouched⟩ := Iteration.take_left (c := script.cursor) plain finish quietly nofun
    (Factory.called t) (w.note (Factory.activity t))
  refine ⟨w', ?_, ?_⟩
  · rw [iterate, source]
    exact (Iteration.take_unopened source _ w).trans taken
  · exact {
      served := .cons .iteration .nil
      own := rfl
      kept := by rw [untouched.submissions]; exact List.prefix_rfl
      counted := congrArg List.length untouched.submissions
      made := untouched.makings.trans (World.makings_note ..)
      called := rfl }

theorem Stream.consume_steady (steady : t.Steady items failure) (plain : ∀ f ∈ failure, f.IsPlain)
    {use : Consumption υ} (quiet : use.IsQuiet) (w : World υ) :
    ∃ w' got, t.consume w use = (Factory.called t, w', got) ∧
      Consumes items failure [use] t w (Factory.called t) w' [got] := by
  cases use with
  | subscription each =>
    obtain ⟨w', done, consumes⟩ := subscribe_steady steady plain quiet w
    exact ⟨w', _, by rw [consume, done], consumes⟩
  | iteration =>
    obtain ⟨w', done, consumes⟩ := iterate_steady steady plain w
    exact ⟨w', _, by rw [consume, done], consumes⟩

/-- Subscriptions to a stream and iterations over it agree, however often and in whatever order they are made. -/
theorem Stream.consumptions_agree (steady : t.Steady items failure) (plain : ∀ f ∈ failure, f.IsPlain)
    {uses : List (Consumption υ)} (quiet : ∀ use ∈ uses, use.IsQuiet) (w : World υ) :
    ∃ t' w' got, t.consumeAll w uses = (t', w', got) ∧ Consumes items failure uses t w t' w' got := by
  induction uses generalizing t w with
  | nil => exact ⟨t, w, [], rfl, .nil t w⟩
  | cons use uses ih =>
    obtain ⟨quiet, others⟩ := List.forall_mem_cons.mp quiet
    obtain ⟨w₁, got, done, first⟩ := consume_steady steady plain quiet w
    -- what is made does not depend on the number of calls, so the stream is as steady as before
    have again : Stream.Steady (Factory.called t) items failure := steady
    obtain ⟨t', w', rest, finished, later⟩ := ih again others w₁
    refine ⟨t', w', got :: rest, ?_, first.cons later⟩
    rw [consumeAll, done]
    dsimp only
    rw [finished]

end Uses

/-- A stream that is lost behind its second item. All its sources but the second can be closed. -/
def lostStream : Stream Nat where
  first := .source { items := [1, 2], finish := .raises (.ofRuntime "lost") }
  rest := [
    .source { items := [1, 2], finish := .raises (.ofRuntime "lost"), kind := .iterator },
    .source { items := [1, 2], finish := .raises (.ofRuntime "lost"), kind := .iterator, closable := true }]

theorem lostStream_consumptions :
    lostStream.Steady [1, 2] (some (.ofRuntime "lost")) ∧ (Fault.ofRuntime "lost").IsPlain ∧
      ∃ t' w' got, lostStream.consumeAll {} [.iteration, .subscription fun _ => none, .iteration] = (t', w', got) ∧
        Consumes [1, 2] (some (.ofRuntime "lost")) [.iteration, .subscription fun _ => none, .iteration] lostStream {}
          t' w' got := by
  have steady : lostStream.Steady [1, 2] (some (.ofRuntime "lost")) := by
    intro o member
    simp only [lostStream, List.mem_cons, List.not_mem_nil, or_false] at member
    rcases member with rfl | rfl | rfl
    · exact ⟨_, rfl, rfl, rfl, nofun⟩
    · exact ⟨_, rfl, rfl, rfl, nofun⟩
    · exact ⟨_, rfl, rfl, rfl, fun _ _ => rfl⟩
  have plain : (Fault.ofRuntime "lost").IsPlain := by decide
  refine ⟨steady, plain, Stream.consumptions_agree steady ?_ ?_ {}⟩
  · rintro f ⟨⟩
    exact plain
  · simp [Consumption.IsQuiet]

end SyncFacade
