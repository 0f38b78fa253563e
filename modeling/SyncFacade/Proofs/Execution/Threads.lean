import SyncFacade.Execution.World
import Mathlib.Data.List.Basic

/-! The threads of a scope over time. Between two uses a scope records nothing, or the one thread that is alive,
or one that has died. From each of these it gets a live thread when something is submitted to it, and from each of
them it can be closed. -/
namespace SyncFacade

namespace ExecutionScope

/-- How a scope stands between two uses. All that it records belongs to one thread, and no other is alive. -/
inductive Standing (s : ExecutionScope) : Prop where
  | idle (thread : s.thread = none) (loop : s.loop = none) (alive : s.alive = [])
  | live (t : Nat) (thread : s.thread = some t) (loop : s.loop = some t) (stopping : s.stopping = some t)
      (alive : s.alive = [t]) (earlier : t < s.started)
  | dead (t : Nat) (thread : s.thread = some t) (loop : s.loop = some t) (alive : s.alive = [])
      (earlier : t < s.started)

def RecordsDead (s : ExecutionScope) : Prop := ∃ t, s.thread = some t ∧ t ∉ s.alive

/-- A loop is obtained: that of the live thread, or of a thread started because there is none. A thread that
died is given a warning. -/
structure Obtains (s : ExecutionScope) (records : List Record) (s' : ExecutionScope) (l : Nat) : Prop where
  thread : s'.thread = some l
  loop : s'.loop = some l
  alive : s'.alive = [l]
  origin : (s.alive = [l] ∧ s'.started = s.started) ∨
    (s.alive = [] ∧ l = s.started ∧ s'.started = s.started + 1)
  warned : (s.RecordsDead ∧ records = [threadDied]) ∨ (¬ s.RecordsDead ∧ records = [])

section Uses

variable {s : ExecutionScope}

theorem standing_start (alive : s.alive = []) : s.start.Standing :=
  .live s.started rfl rfl rfl (by simp [start, alive]) (Nat.lt_succ_self _)

theorem Standing.fields (standing : s.Standing) : s.thread.isSome = s.loop.isSome := by
  cases standing with
  | idle thread loop => rw [thread, loop]
  | live t thread loop => rw [thread, loop]
  | dead t thread loop => rw [thread, loop]

theorem Standing.loop_lt (standing : s.Standing) {l : Nat} (recorded : s.loop = some l) : l < s.started := by
  cases standing with
  | idle thread loop => simp [loop] at recorded
  | live t thread loop stopping alive earlier =>
    cases loop.symm.trans recorded
    exact earlier
  | dead t thread loop alive earlier =>
    cases loop.symm.trans recorded
    exact earlier

theorem Standing.acquire (standing : s.Standing) :
    Obtains s s.acquire.1 s.acquire.2.1 s.acquire.2.2 ∧ s.acquire.2.1.Standing := by
  cases standing with
  | idle thread loop alive =>
    have healthy : ¬ s.RecordsDead := by simp [RecordsDead, thread]
    have acquired : s.acquire = ([], s.start, s.started) := by
      simp [ExecutionScope.acquire, recover, hasDied, thread, loop]
    rw [acquired]
    exact ⟨⟨rfl, rfl, by simp [start, alive], .inr ⟨alive, rfl, rfl⟩, .inr ⟨healthy, rfl⟩⟩, standing_start alive⟩
  | live t thread loop stopping alive earlier =>
    have healthy : ¬ s.RecordsDead := by simp [RecordsDead, thread, alive]
    have acquired : s.acquire = ([], s, t) := by
      simp [ExecutionScope.acquire, recover, hasDied, thread, loop, alive]
    rw [acquired]
    exact ⟨⟨thread, loop, alive, .inl ⟨alive, rfl⟩, .inr ⟨healthy, rfl⟩⟩,
      .live t thread loop stopping alive earlier⟩
  | dead t thread loop alive earlier =>
    have died : s.RecordsDead := ⟨t, thread, by simp [alive]⟩
    have acquired : s.acquire = ([threadDied], s.forget.start, s.started) := by
      simp [ExecutionScope.acquire, recover, hasDied, thread, alive, forget]
    rw [acquired]
    exact ⟨⟨rfl, rfl, by simp [start, forget, alive], .inr ⟨alive, rfl, rfl⟩, .inl ⟨died, rfl⟩⟩,
      standing_start alive⟩

theorem Standing.die (standing : s.Standing) : s.die.Standing := by
  cases standing with
  | idle thread loop alive =>
    have same : s.die = s := by simp [ExecutionScope.die, thread]
    rw [same]
    exact .idle thread loop alive
  | live t thread loop stopping alive earlier =>
    have fell : s.die = s.ended t := by simp [ExecutionScope.die, thread]
    rw [fell]
    exact .dead t thread loop (by simp [ended, alive]) earlier
  | dead t thread loop alive earlier =>
    have fell : s.die = s.ended t := by simp [ExecutionScope.die, thread]
    rw [fell]
    exact .dead t thread loop (by simp [ended, alive]) earlier

/-- Nothing keeps a scope from being closed. A live thread is asked to stop before it is waited for, and a dead
one has left a closed loop, which is asked nothing. -/
theorem Standing.close (standing : s.Standing) :
    s.close = .ok { s with thread := none, loop := none, alive := [] } := by
  cases standing with
  | idle thread loop alive =>
    cases s
    simp_all [ExecutionScope.close]
  | live t thread loop stopping alive earlier =>
    have stopped : s.stop = .ok (s.ended t) := by simp [stop, loop, stopping, alive]
    have joined : (s.ended t).join t = .ok (s.ended t) := by simp [join, ended, alive]
    simp only [ExecutionScope.close, thread, stopped, bind, Except.bind, joined]
    simp [pure, Except.pure, forget, ended, alive]
  | dead t thread loop alive earlier =>
    have stopped : s.stop = .ok s := by simp [stop, loop, alive]
    have joined : s.join t = .ok s := by simp [join, alive]
    simp only [ExecutionScope.close, thread, stopped, bind, Except.bind, joined]
    simp [pure, Except.pure, forget, alive]

end Uses
end ExecutionScope

/-- What a scope goes through: something is submitted to it, it is closed, or its thread ends by itself. -/
inductive Occurrence (υ : Type) where
  | submit (call : Nat → Submission υ)
  | close
  | death

namespace World

variable {υ : Type}

/-- A call is submitted to the loop of a live thread. -/
def Schedules (w : World υ) (call : Nat → Submission υ) (w' : World υ) : Prop :=
  ∃ records l, w.scope.Obtains records w'.scope l ∧ w'.submissions = w.submissions ++ [call l] ∧
    w'.records = w.records ++ records

theorem schedules_submit {w : World υ} (standing : w.scope.Standing) (call : Nat → Submission υ) :
    w.Schedules call (w.submit call) :=
  ⟨_, _, standing.acquire.1, rfl, rfl⟩

theorem submissions_cancelWhere (w : World υ) (which : Nat → Nat → Bool) :
    (w.cancelWhere which).submissions = w.submissions.mapIdx fun place s =>
      if s.future = .running && which place s.loop then { s with future := .cancelled } else s := by
  rw [List.mapIdx_eq_zipIdx_map]
  rfl

theorem mapIdx_still {f : Nat → Submission υ → Submission υ} (still : ∀ place s, f place s = s)
    (l : List (Submission υ)) : l.mapIdx f = l :=
  List.mapIdx_eq_iff.mpr fun place => by
    rw [funext (still place)]
    exact Option.map_id'.symm

theorem cancelWhere_none (w : World υ) {which : Nat → Nat → Bool} (none : ∀ place loop, which place loop = false) :
    w.cancelWhere which = w := by
  have submissions : (w.cancelWhere which).submissions = w.submissions := by
    rw [submissions_cancelWhere]
    exact mapIdx_still (fun place s => by simp [none]) _
  have activity : (w.cancelWhere which).activity = w.activity := by
    simp [cancelWhere, none]
  calc w.cancelWhere which
      = { w with submissions := (w.cancelWhere which).submissions
                 activity := (w.cancelWhere which).activity } := rfl
    _ = w := by rw [submissions, activity]

def occur (w : World υ) : Occurrence υ → Except Hindrance (World υ)
  | .submit call => .ok (w.submit call)
  | .close => w.close
  | .death => .ok w.die

/-- The world after all that a new scope goes through. -/
def through (past : List (Occurrence υ)) : Except Hindrance (World υ) := past.foldlM occur {}

theorem close_standing {w : World υ} (standing : w.scope.Standing) :
    w.close = .ok { w.endLoop with scope := { w.scope with thread := none, loop := none, alive := [] } } := by
  rw [close, standing.close]
  rfl

theorem occur_standing {w : World υ} (standing : w.scope.Standing) (e : Occurrence υ) :
    ∃ w', w.occur e = .ok w' ∧ w'.scope.Standing ∧ w.scope.started ≤ w'.scope.started := by
  cases e with
  | submit call =>
    obtain ⟨obtained, after⟩ := standing.acquire
    refine ⟨w.submit call, rfl, after, ?_⟩
    rcases obtained.origin with ⟨_, kept⟩ | ⟨_, _, counted⟩
    · exact Nat.le_of_eq kept.symm
    · exact Nat.le_of_succ_le (Nat.le_of_eq counted.symm)
  | close => exact ⟨_, close_standing standing, .idle rfl rfl rfl, Nat.le_refl _⟩
  | death =>
    have kept : w.scope.die.started = w.scope.started := by
      unfold ExecutionScope.die
      split <;> rfl
    exact ⟨w.die, rfl, standing.die, Nat.le_of_eq kept.symm⟩

theorem occurAll_standing {w : World υ} (standing : w.scope.Standing) (events : List (Occurrence υ)) :
    ∃ w', events.foldlM occur w = .ok w' ∧ w'.scope.Standing ∧ w.scope.started ≤ w'.scope.started := by
  induction events generalizing w with
  | nil => exact ⟨w, rfl, standing, Nat.le_refl _⟩
  | cons e rest ih =>
    obtain ⟨middle, first, stands, earlier⟩ := occur_standing standing e
    obtain ⟨last, rest, still, later⟩ := ih stands
    refine ⟨last, ?_, still, Nat.le_trans earlier later⟩
    rw [List.foldlM_cons, first]
    exact rest

theorem exists_through (past : List (Occurrence υ)) :
    ∃ w : World υ, through past = .ok w ∧ w.scope.Standing := by
  obtain ⟨w, done, standing, _⟩ := occurAll_standing (w := {}) (.idle rfl rfl rfl) past
  exact ⟨w, done, standing⟩

/-- Threads are numbered in order, so the next one to start has a loop that was never recorded before. -/
theorem loop_ne_of_through {past before : List (Occurrence υ)} {w u : World υ} (first : before <+: past)
    (earlier : through before = .ok u) (later : through past = .ok w) : u.scope.loop ≠ some w.scope.started := by
  obtain ⟨rest, rfl⟩ := first
  obtain ⟨u', done, standing⟩ := exists_through before
  cases done.symm.trans earlier
  obtain ⟨w', reached, _, bound⟩ := occurAll_standing standing rest
  have whole : through (before ++ rest) = .ok w' := by
    rw [through, List.foldlM_append]
    exact (congrArg (· >>= fun w => rest.foldlM occur w) done).trans reached
  cases whole.symm.trans later
  intro recorded
  have := standing.loop_lt recorded
  omega

/-- Whatever a scope goes through, its thread and its loop are recorded together. Something submitted to it goes to
the loop of a live thread. It can be closed, which ends its thread, and closing it again changes nothing; what is
submitted after that goes to a loop that was never recorded before. -/
theorem scope_stays_consistent (past : List (Occurrence υ)) :
    ∃ w : World υ, through past = .ok w ∧ w.scope.thread.isSome = w.scope.loop.isSome ∧
      (∀ call, w.Schedules call (w.submit call)) ∧
      ∃ closed, w.close = .ok closed ∧ closed.scope.thread = none ∧ closed.scope.loop = none ∧
        (∀ t, w.scope.thread = some t → t ∉ closed.scope.alive) ∧ closed.close = .ok closed ∧
        ∀ call, closed.Schedules call (closed.submit call) ∧
          ∀ before u, before <+: past → through before = .ok u →
            u.scope.loop ≠ (closed.submit call).scope.loop := by
  obtain ⟨w, done, standing⟩ := exists_through past
  refine ⟨w, done, standing.fields, schedules_submit standing, _, close_standing standing, rfl, rfl, ?_, ?_, ?_⟩
  · simp
  · rw [close_standing (.idle rfl rfl rfl), endLoop, cancelWhere_none _ fun _ _ => by simp]
  · intro call
    refine ⟨schedules_submit (.idle rfl rfl rfl) call, fun before u first earlier => ?_⟩
    have fresh := loop_ne_of_through first earlier done
    exact fresh

/-- A scope whose thread dies, and that is used, closed and used again after that. -/
example :
    (through [.submit fun loop => { loop, future := .finished }, .death,
      .submit fun loop => { loop, future := .running }, .close,
      .submit fun loop => ({ loop, future := .finished } : Submission Nat)]).toOption.map
        (fun w => (w.scope.thread, w.scope.alive, w.submissions.map fun s => (s.loop, s.future), w.records.length)) =
      some (some 2, [2], [(0, .finished), (1, .cancelled), (2, .finished)], 1) := by decide

end World
end SyncFacade
