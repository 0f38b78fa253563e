import SyncFacade.Execution.Deferred
import SyncFacade.Execution.Stream
import SyncFacade.Proofs.Execution.Threads
import Mathlib.Data.List.Induction

/-! Answers to subscriptions. A call that was submitted ends, or is cancelled by its holder, or is abandoned: it
raises the error of being cancelled itself, or its loop ends under it. A call that ends is answered once; one that
is cancelled, for whatever reason, is not answered at all. -/
namespace SyncFacade

variable {υ : Type}

theorem Cursor.events_collect (each : υ → Option Fault) (n : Nat) (c : Cursor υ) :
    ∀ e ∈ (c.collect each n).events, e.isTerminal = false := by
  induction n generalizing c with
  | zero => simp [collect]
  | succ n ih =>
    unfold collect
    split
    · next v after activity _ =>
      split
      · simp [Event.isTerminal]
      · exact List.forall_mem_cons.mpr ⟨rfl, ih after⟩
    · simp
    · simp
    · simp

/-- What was submitted, up to where it ends or hangs: a call, or a stream from some point on. -/
inductive Outcome (υ : Type) where
  | call (r : Resolution υ)
  | stream (c : Cursor υ) (each : υ → Option Fault)

namespace Outcome

def submission : Outcome υ → Nat → Submission υ
  | .call r => r.submission
  | .stream c each => (c.collect each (c.left.length + 1)).submission

/-- The code that was submitted raises the error of being cancelled. -/
def IsCancelled : Outcome υ → Prop
  | .call r => r = .failed .cancelled
  | .stream c each => (c.collect each (c.left.length + 1)).conclusion = .failed .cancelled

theorem submission_loop (o : Outcome υ) (l : Nat) : (o.submission l).loop = l := by
  cases o with
  | call r => rcases r with _ | ⟨_ | _⟩ | _ <;> rfl
  | stream c each =>
    simp only [submission, Collection.submission]
    split <;> rfl

theorem submission_cancelled_iff (o : Outcome υ) (l : Nat) : (o.submission l).future = .cancelled ↔ o.IsCancelled := by
  cases o with
  | call r => rcases r with _ | ⟨_ | _⟩ | _ <;> simp [submission, Resolution.submission, IsCancelled]
  | stream c each =>
    simp only [submission, Collection.submission, IsCancelled]
    split <;> simp [*]

end Outcome

/-- The number of final callbacks that a submission has made. -/
def Submission.answers (s : Submission υ) : Nat := s.events.countP Event.isTerminal

def Submission.cancelled (s : Submission υ) : Submission υ := { s with future := .cancelled }

/-- A submission that hung goes on as the given outcome does. -/
def Submission.resumed (s : Submission υ) (o : Outcome υ) : Submission υ :=
  { o.submission s.loop with events := s.events ++ (o.submission s.loop).events }

/-- A submission is answered once if it is finished, and else not at all. -/
def Submission.Answered (s : Submission υ) : Prop := s.answers = if s.future = .finished then 1 else 0

theorem Resolution.answered (r : Resolution υ) (l : Nat) : (r.submission l).Answered := by
  rcases r with _ | ⟨_ | _⟩ | _ <;>
    simp [submission, Submission.Answered, Submission.answers, Event.isTerminal]

theorem Collection.answered (c : Collection υ) (quiet : ∀ e ∈ c.events, e.isTerminal = false) (l : Nat) :
    (c.submission l).Answered := by
  have before : c.events.countP Event.isTerminal = 0 := List.countP_eq_zero.mpr fun e member => by simp [quiet e member]
  obtain ⟨events, activity, conclusion⟩ := c
  rcases conclusion with _ | ⟨_ | _⟩ | _ <;>
    simpa [submission, Submission.Answered, Submission.answers, Event.isTerminal] using before

theorem Outcome.answered (o : Outcome υ) (l : Nat) : (o.submission l).Answered := by
  cases o with
  | call r => exact r.answered l
  | stream c each => exact Collection.answered _ (c.events_collect each _) l

theorem Submission.Answered.cancelled {s : Submission υ} (answered : s.Answered) (running : s.future = .running) :
    s.cancelled.Answered := by
  simpa [Answered, answers, Submission.cancelled, running] using answered

theorem Submission.Answered.resumed {s : Submission υ} (answered : s.Answered) (running : s.future = .running)
    (o : Outcome υ) : (s.resumed o).Answered := by
  have before : s.answers = 0 := by simpa [Answered, running] using answered
  calc (s.resumed o).answers
      = s.answers + (o.submission s.loop).answers := List.countP_append
    _ = (o.submission s.loop).answers := by rw [before, Nat.zero_add]
    _ = if (s.resumed o).future = .finished then 1 else 0 := o.answered s.loop

/-- What is done with a scope and the subscriptions on it, or happens to them. A call or a stream is subscribed to;
what hangs goes on; the holder of a future cancels it; the scope is closed, or its thread ends by itself. -/
inductive Operation (υ : Type) where
  | call (d : Deferred υ)
  | collect (t : Stream υ) (each : υ → Option Fault)
  | resume (place : Nat) (o : Outcome υ)
  | cancel (place : Nat)
  | close
  | death

namespace Operation

/-- What an operation submits. Nothing is submitted if the factory fails. -/
def subscribes : Operation υ → Option (Outcome υ)
  | .call d => match (Factory.next d).resolution with
    | .ok r => some (.call r)
    | .error _ => none
  | .collect t each => match Factory.next t with
    | .source script => some (.stream script.cursor each)
    | .factoryRaises _ => none
  | _ => none

/-- What an operation makes of a submission that was there before. -/
def effect (op : Operation υ) (place : Nat) (s : Submission υ) : Submission υ :=
  if s.future = .running then
    match op with
    | .resume p o => if p = place then s.resumed o else s
    | .cancel p => if p = place then s.cancelled else s
    | .close => s.cancelled
    | .death => s.cancelled
    | _ => s
  else s

theorem effect_of_subscribes {op : Operation υ} {o : Outcome υ} (subscribed : op.subscribes = some o) (place : Nat)
    (s : Submission υ) : op.effect place s = s := by
  cases op <;> simp_all [subscribes, effect]

theorem effect_running {op : Operation υ} {place : Nat} {s : Submission υ}
    (running : (op.effect place s).future = .running) :
    s.future = .running ∧ (op.effect place s).loop = s.loop := by
  unfold effect at running ⊢
  split
  · next before =>
    refine ⟨before, ?_⟩
    cases op with
    | resume p o =>
      dsimp only
      split
      · exact o.submission_loop s.loop
      · rfl
    | cancel p =>
      dsimp only
      split <;> rfl
    | call | collect | close | death => rfl
  · next still => simp [still] at running

theorem effect_answered {s : Submission υ} (answered : s.Answered) (op : Operation υ) (place : Nat) :
    (op.effect place s).Answered := by
  unfold effect
  split
  · next running =>
    cases op with
    | resume p o =>
      dsimp only
      split
      · exact answered.resumed running o
      · exact answered
    | cancel p =>
      dsimp only
      split
      · exact answered.cancelled running
      · exact answered
    | close | death => exact answered.cancelled running
    | call | collect => exact answered
  · exact answered

/-- The operation leaves a submission that runs without an end of its own: the code raises the error of being
cancelled as it goes on, or the loop ends. -/
def Breaks (op : Operation υ) (place : Nat) : Prop :=
  (∃ o, op = .resume place o ∧ o.IsCancelled) ∨ op = .close ∨ op = .death

theorem effect_cancelled_iff {op : Operation υ} {place : Nat} (kept : op ≠ .cancel place) (s : Submission υ) :
    (op.effect place s).future = .cancelled ↔
      s.future = .cancelled ∨ (s.future = .running ∧ op.Breaks place) := by
  unfold effect
  split
  · next running =>
    cases op with
    | resume p o =>
      by_cases here : p = place
      · have went : (s.resumed o).future = .cancelled ↔ o.IsCancelled := o.submission_cancelled_iff s.loop
        simp [here, went, running, Breaks]
      · simp [here, running, Breaks]
    | cancel p =>
      have elsewhere : p ≠ place := fun here => kept (here ▸ rfl)
      simp [elsewhere, running, Breaks]
    | close | death => simp [Submission.cancelled, running, Breaks]
    | call | collect => simp [running, Breaks]
  · next still => simp [still]

end Operation

namespace World

/-- Let a submission that hangs go on. -/
def resume (w : World υ) (place : Nat) (o : Outcome υ) : World υ :=
  { w with submissions := w.submissions.modify place fun s => if s.future = .running then s.resumed o else s }

def perform (w : World υ) : Operation υ → Except Hindrance (World υ)
  | .call d => .ok (Deferred.subscribe d w).2.1
  | .collect t each => .ok (Stream.subscribe t each w).2.1
  | .resume place o => .ok (w.resume place o)
  | .cancel place => .ok (w.cancel place)
  | .close => w.close
  | .death => .ok w.die

/-- The world after some operations, from a new scope on. -/
def after (operations : List (Operation υ)) : Except Hindrance (World υ) := operations.foldlM perform {}

def futureOf (w : World υ) (place : Nat) : Option FutureState := w.submissions[place]?.map Submission.future

/-- What still runs does so on the loop of the live thread. -/
structure Tended (w : World υ) : Prop where
  standing : w.scope.Standing
  running : ∀ s ∈ w.submissions, s.future = .running → w.scope.loop = some s.loop ∧ s.loop ∈ w.scope.alive

/-- How the submissions change by an operation: one by one, and at most one is new. -/
def Succeeds (w w' : World υ) (op : Operation υ) : Prop :=
  ∃ l, w'.submissions = w.submissions.mapIdx op.effect ++ (op.subscribes.map fun o => o.submission l).toList

section Steps

variable {w w' : World υ} {op : Operation υ}

theorem perform_submits (w : World υ) {o : Outcome υ} (subscribed : op.subscribes = some o) :
    ∃ w', w.perform op = .ok w' ∧ w'.scope = w.scope.acquire.2.1 ∧
      w'.submissions = w.submissions ++ [o.submission w.scope.acquire.2.2] := by
  cases op with
  | call d =>
    unfold Operation.subscribes at subscribed
    dsimp only at subscribed
    split at subscribed
    · next r made =>
      cases subscribed
      refine ⟨_, rfl, ?_, ?_⟩ <;> simp [Deferred.subscribe, CallOutcome.run, made, submit, enter, note,
        Outcome.submission]
    · contradiction
  | collect t each =>
    unfold Operation.subscribes at subscribed
    dsimp only at subscribed
    split at subscribed
    · next script made =>
      cases subscribed
      refine ⟨_, rfl, ?_, ?_⟩ <;> simp [Stream.subscribe, made, submit, enter, note, Outcome.submission,
        StreamScript.cursor]
    · contradiction
  | resume | cancel | close | death => contradiction

/-- A factory that fails leaves the scope and what runs on it alone. -/
theorem perform_refused (w : World υ) (refused : op.subscribes = none)
    (asked : (∃ d, op = .call d) ∨ ∃ t each, op = .collect t each) :
    ∃ w', w.perform op = .ok w' ∧ w'.scope = w.scope ∧ w'.submissions = w.submissions.mapIdx op.effect := by
  have still : w.submissions.mapIdx op.effect = w.submissions := mapIdx_still (fun place s => by
    rcases asked with ⟨d, rfl⟩ | ⟨t, each, rfl⟩ <;> simp [Operation.effect]) _
  rw [still]
  rcases asked with ⟨d, rfl⟩ | ⟨t, each, rfl⟩
  · unfold Operation.subscribes at refused
    dsimp only at refused
    split at refused
    · contradiction
    · next f made =>
      refine ⟨_, rfl, ?_, ?_⟩ <;> simp [Deferred.subscribe, CallOutcome.run, made, note]
  · unfold Operation.subscribes at refused
    dsimp only at refused
    split at refused
    · contradiction
    · next f made =>
      refine ⟨_, rfl, ?_, ?_⟩ <;> simp [Stream.subscribe, made, note]

theorem submissions_resume (w : World υ) (p : Nat) (o : Outcome υ) :
    (w.resume p o).submissions = w.submissions.mapIdx (Operation.resume p o).effect := by
  refine (List.mapIdx_eq_iff.mpr fun place => ?_).symm
  rw [resume, List.getElem?_modify]
  cases w.submissions[place]? with
  | none => rfl
  | some s => by_cases here : p = place <;> simp [here, Operation.effect]

theorem submissions_cancel (w : World υ) (p : Nat) :
    (w.cancel p).submissions = w.submissions.mapIdx (Operation.cancel p).effect := by
  rw [cancel, submissions_cancelWhere]
  congr
  funext place s
  by_cases here : p = place
  · simp [here, Operation.effect, Submission.cancelled]
  · simp [here, Ne.symm here, Operation.effect]

theorem Tended.submitted (tended : w.Tended) {s : Submission υ} (placed : s.loop = w.scope.acquire.2.2)
    (scope : w'.scope = w.scope.acquire.2.1) (submissions : w'.submissions = w.submissions ++ [s]) : w'.Tended := by
  obtain ⟨obtained, standing⟩ := tended.standing.acquire
  refine ⟨scope ▸ standing, fun r member running => ?_⟩
  rw [scope, obtained.loop, obtained.alive]
  rw [submissions, List.mem_append, List.mem_singleton] at member
  rcases member with before | rfl
  · obtain ⟨_, live⟩ := tended.running r before running
    rcases obtained.origin with ⟨alive, _⟩ | ⟨alive, _⟩
    · rw [alive, List.mem_singleton] at live
      simp [live]
    · simp [alive] at live
  · simp [placed]

theorem Tended.changed (tended : w.Tended) (op : Operation υ) (scope : w'.scope = w.scope)
    (submissions : w'.submissions = w.submissions.mapIdx op.effect) : w'.Tended := by
  refine ⟨scope ▸ tended.standing, fun r member running => ?_⟩
  rw [submissions, List.mem_mapIdx] at member
  obtain ⟨place, bound, rfl⟩ := member
  obtain ⟨before, same⟩ := Operation.effect_running running
  rw [scope, same]
  exact tended.running _ (List.getElem_mem bound) before

/-- Where the loop ends, all that still runs is on it. -/
theorem Tended.endLoop (tended : w.Tended) :
    w.endLoop.submissions = w.submissions.mapIdx fun _ s => if s.future = .running then s.cancelled else s := by
  rw [World.endLoop, submissions_cancelWhere, List.mapIdx_eq_iff]
  intro place
  rw [List.getElem?_mapIdx]
  cases found : w.submissions[place]? with
  | none => rfl
  | some s =>
    by_cases running : s.future = .running
    · obtain ⟨recorded, _⟩ := tended.running s (List.mem_of_getElem? found) running
      simp [running, recorded, Submission.cancelled]
    · simp [running]

theorem not_running_endLoop (tended : w.Tended) : ∀ s ∈ w.endLoop.submissions, s.future ≠ .running := by
  rw [tended.endLoop]
  intro s member
  obtain ⟨place, bound, rfl⟩ := List.mem_mapIdx.mp member
  split
  · simp [Submission.cancelled]
  · assumption

/-- Every operation can be performed. -/
theorem perform_tended (tended : w.Tended) (op : Operation υ) :
    ∃ w', w.perform op = .ok w' ∧ w'.Tended ∧ w.Succeeds w' op := by
  cases subscribed : op.subscribes with
  | some o =>
    obtain ⟨w', done, scope, submissions⟩ := perform_submits w subscribed
    refine ⟨w', done, tended.submitted (o.submission_loop _) scope submissions, w.scope.acquire.2.2, ?_⟩
    rw [submissions, subscribed, mapIdx_still (Operation.effect_of_subscribes subscribed)]
    rfl
  | none =>
    have changes : ∀ {w' : World υ}, w'.submissions = w.submissions.mapIdx op.effect → w.Succeeds w' op :=
      fun same => ⟨0, by simp [same, subscribed]⟩
    cases op with
    | call d =>
      obtain ⟨w', done, scope, same⟩ := perform_refused w subscribed (.inl ⟨d, rfl⟩)
      exact ⟨w', done, tended.changed _ scope same, changes same⟩
    | collect t each =>
      obtain ⟨w', done, scope, same⟩ := perform_refused w subscribed (.inr ⟨t, each, rfl⟩)
      exact ⟨w', done, tended.changed _ scope same, changes same⟩
    | resume p o =>
      have same := w.submissions_resume p o
      exact ⟨_, rfl, tended.changed _ rfl same, changes same⟩
    | cancel p =>
      have same := w.submissions_cancel p
      exact ⟨_, rfl, tended.changed _ rfl same, changes same⟩
    | close =>
      have stopped := not_running_endLoop tended
      exact ⟨_, close_standing tended.standing,
        ⟨.idle rfl rfl rfl, fun s member running => absurd running (stopped s member)⟩, changes tended.endLoop⟩
    | death =>
      have stopped := not_running_endLoop tended
      exact ⟨_, rfl, ⟨tended.standing.die, fun s member running => absurd running (stopped s member)⟩,
        changes tended.endLoop⟩

theorem futureOf_eq_some_iff {place : Nat} {state : FutureState} :
    w.futureOf place = some state ↔ ∃ s, w.submissions[place]? = some s ∧ s.future = state := by
  rw [futureOf, Option.map_eq_some_iff]

theorem Succeeds.submission_iff (succeeds : w.Succeeds w' op) :
    ∃ l, ∀ place s', w'.submissions[place]? = some s' ↔
      (∃ s, w.submissions[place]? = some s ∧ op.effect place s = s') ∨
      (place = w.submissions.length ∧ ∃ o, op.subscribes = some o ∧ o.submission l = s') := by
  obtain ⟨l, same⟩ := succeeds
  refine ⟨l, fun place s' => ?_⟩
  rw [same, List.getElem?_append, List.length_mapIdx]
  split
  · next before =>
    have old : place ≠ w.submissions.length := Nat.ne_of_lt before
    simp [old]
  · next behind =>
    have out : w.submissions[place]? = none := List.getElem?_eq_none (Nat.le_of_not_lt behind)
    cases op.subscribes with
    | none => simp [out]
    | some o =>
      have first : place - w.submissions.length = 0 ↔ place = w.submissions.length := by omega
      simp [out, List.getElem?_singleton, first]

theorem Succeeds.answered (succeeds : w.Succeeds w' op) (answered : ∀ s ∈ w.submissions, s.Answered) :
    ∀ s ∈ w'.submissions, s.Answered := by
  obtain ⟨l, member_iff⟩ := succeeds.submission_iff
  intro s' member
  obtain ⟨place, found⟩ := List.mem_iff_getElem?.mp member
  rcases (member_iff place s').mp found with ⟨s, before, rfl⟩ | ⟨_, o, _, rfl⟩
  · exact Operation.effect_answered (answered s (List.mem_of_getElem? before)) op place
  · exact o.answered l

/-- By this operation a submission is cancelled, and not by its holder: it runs and is left without an end of its
own, or it is new and raises the error of being cancelled at once. -/
def Abandons (w : World υ) (op : Operation υ) (place : Nat) : Prop :=
  (w.futureOf place = some .running ∧ op.Breaks place) ∨
    (place = w.submissions.length ∧ ∃ o, op.subscribes = some o ∧ o.IsCancelled)

theorem Succeeds.cancelled_iff (succeeds : w.Succeeds w' op) {place : Nat} (kept : op ≠ .cancel place) :
    w'.futureOf place = some .cancelled ↔ w.futureOf place = some .cancelled ∨ w.Abandons op place := by
  obtain ⟨l, submission_iff⟩ := succeeds.submission_iff
  simp only [futureOf_eq_some_iff, Abandons]
  constructor
  · rintro ⟨s', found, cancelled⟩
    rcases (submission_iff place s').mp found with ⟨s, before, rfl⟩ | ⟨new, o, subscribed, rfl⟩
    · rcases (Operation.effect_cancelled_iff kept s).mp cancelled with already | ⟨running, breaks⟩
      · exact .inl ⟨s, before, already⟩
      · exact .inr (.inl ⟨⟨s, before, running⟩, breaks⟩)
    · exact .inr (.inr ⟨new, o, subscribed, (o.submission_cancelled_iff l).mp cancelled⟩)
  · rintro (⟨s, before, already⟩ | ⟨⟨s, before, running⟩, breaks⟩ | ⟨new, o, subscribed, cancelled⟩)
    · exact ⟨_, (submission_iff place _).mpr (.inl ⟨s, before, rfl⟩),
        (Operation.effect_cancelled_iff kept s).mpr (.inl already)⟩
    · exact ⟨_, (submission_iff place _).mpr (.inl ⟨s, before, rfl⟩),
        (Operation.effect_cancelled_iff kept s).mpr (.inr ⟨running, breaks⟩)⟩
    · exact ⟨_, (submission_iff place _).mpr (.inr ⟨new, o, subscribed, rfl⟩),
        (o.submission_cancelled_iff l).mpr cancelled⟩

end Steps

/-- One of the operations abandons the submission, where the ones before it have led. -/
def Abandoned (operations : List (Operation υ)) (place : Nat) : Prop :=
  ∃ before op later w, operations = before ++ op :: later ∧ after before = .ok w ∧ w.Abandons op place

theorem abandoned_concat {operations : List (Operation υ)} {w : World υ} (done : after operations = .ok w)
    (op : Operation υ) (place : Nat) :
    Abandoned (operations ++ [op]) place ↔ Abandoned operations place ∨ w.Abandons op place := by
  constructor
  · rintro ⟨before, breaking, later, u, split, reached, abandons⟩
    rcases List.eq_nil_or_concat later with rfl | ⟨rest, last, rfl⟩
    · obtain ⟨rfl, same⟩ := List.append_inj' split rfl
      cases same
      cases done.symm.trans reached
      exact .inr abandons
    · rw [List.concat_eq_append, ← List.cons_append, ← List.append_assoc] at split
      obtain ⟨rfl, _⟩ := List.append_inj' split rfl
      exact .inl ⟨before, breaking, rest, u, rfl, reached, abandons⟩
  · rintro (⟨before, breaking, later, u, rfl, reached, abandons⟩ | abandons)
    · exact ⟨before, breaking, later ++ [op], u, by simp, reached, abandons⟩
    · exact ⟨operations, op, [], w, rfl, done, abandons⟩

theorem exists_after (operations : List (Operation υ)) :
    ∃ w : World υ, after operations = .ok w ∧ w.Tended ∧ (∀ s ∈ w.submissions, s.Answered) ∧
      ∀ place, .cancel place ∉ operations →
        (w.futureOf place = some .cancelled ↔ Abandoned operations place) := by
  induction operations using List.reverseRecOn with
  | nil =>
    refine ⟨{}, rfl, ⟨.idle rfl rfl rfl, by simp⟩, by simp, fun place _ => ?_⟩
    simp [futureOf, Abandoned]
  | append_singleton operations op ih =>
    obtain ⟨w, done, tended, answered, cancelled_iff⟩ := ih
    obtain ⟨w', performed, still, succeeds⟩ := perform_tended tended op
    refine ⟨w', ?_, still, succeeds.answered answered, fun place kept => ?_⟩
    · have whole : after (operations ++ [op]) = (after operations >>= fun w => w.perform op) := by
        rw [after, List.foldlM_append]
        simp [after]
      rw [whole, done]
      exact performed
    · rw [List.mem_append, List.mem_singleton, not_or] at kept
      rw [succeeds.cancelled_iff (Ne.symm kept.2), cancelled_iff place kept.1, abandoned_concat done]

/-- Whatever is done with a scope, a submission that is done and was never cancelled by its holder has been answered
exactly once if it was not abandoned, and not at all if it was. -/
theorem answered_once_iff (operations : List (Operation υ)) :
    ∃ w : World υ, after operations = .ok w ∧ ∀ place s, w.submissions[place]? = some s → s.future ≠ .running →
      .cancel place ∉ operations →
        (s.answers = 1 ↔ ¬ Abandoned operations place) ∧ (s.answers = 0 ↔ Abandoned operations place) := by
  obtain ⟨w, done, _, answered, cancelled_iff⟩ := exists_after operations
  refine ⟨w, done, fun place s found still kept => ?_⟩
  have count := answered s (List.mem_of_getElem? found)
  rw [← cancelled_iff place kept, futureOf, found]
  cases state : s.future with
  | running => exact absurd state still
  | finished =>
    have once : s.answers = 1 := by simpa [Submission.Answered, state] using count
    simp [state, once]
  | cancelled =>
    have never : s.answers = 0 := by simpa [Submission.Answered, state] using count
    simp [state, never]

/-- A call that raises the error of being cancelled. -/
def selfCancelling : Deferred Nat := { first := .awaits (.raises { kind := .cancelled, message := "" }) }

theorem cancelled_call_unanswered :
    ∃ w s, after [.call selfCancelling] = .ok w ∧ w.submissions[0]? = some s ∧ s.future ≠ .running ∧
      .cancel 0 ∉ [Operation.call selfCancelling] ∧ s.answers ≠ 1 :=
  ⟨_, _, rfl, rfl, by decide, by simp, by decide⟩

/-- Of two calls that hang, one goes on and ends. The scope is closed under the other. -/
example :
    ((after [.call { first := .awaits .hangs }, .call { first := .awaits .hangs }, .resume 1 (.call (.value 7)),
      .close]).toOption.map fun w : World Nat => w.submissions.map fun s => (s.future, s.answers)) =
      some [(.cancelled, 0), (.finished, 1)] := by decide

end World
end SyncFacade
