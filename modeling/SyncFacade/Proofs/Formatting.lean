import SyncFacade.Formatter
import Mathlib.Data.List.Basic

/-! What is left of a source when one of the commands that work on it fails: not the source that came in but
what the commands before that one made of it. -/
namespace SyncFacade.Formatter

/-- What a command writes for a source, unless it fails. -/
def written (behave : Behaviour) (source : String) : Option String :=
  match behave source with
  | none => none
  | some c => if c.failed then none else some c.output

/-- A command fails if there is none, or if its exit code says so and it wrote nothing. -/
def Fails (behave : Behaviour) (source : String) : Prop :=
  behave source = none ∨ ∃ c, behave source = some c ∧ c.code ≠ 0 ∧ c.output = ""

theorem fails_iff {behave : Behaviour} {source : String} :
    Fails behave source ↔ written behave source = none := by
  rw [Fails, written]
  cases behave source with
  | none => simp
  | some c => simp [Completion.failed]

/-- Commands that run one after the other leave a source behind: as soon as one of them fails, the one that
it was given. -/
inductive Leaves : List Behaviour → String → String → Prop
  | done (source : String) : Leaves [] source source
  | fails {behave : Behaviour} {source : String} (rest : List Behaviour)
      (fault : Fails behave source) : Leaves (behave :: rest) source source
  | passes {behave : Behaviour} {rest : List Behaviour} {source made result : String}
      (writes : written behave source = some made) (leaves : Leaves rest made result) :
      Leaves (behave :: rest) source result

theorem run_cons (command : List String) (rest : List (List String)) (behave : Behaviour)
    (later : List Behaviour) (source : String) :
    (run (command :: rest) (behave :: later) source).source =
      match written behave source with
      | none => source
      | some made => (run rest later made).source := by
  rw [run, written, List.head?_cons, Option.bind_some, List.tail_cons]
  cases behave source with
  | none => rfl
  | some c => by_cases fails : c.failed = true <;> simp [fails]

theorem run_leaves (commands : List (List String)) (behaviours : List Behaviour) (source : String)
    (enough : commands.length ≤ behaviours.length) :
    Leaves (behaviours.take commands.length) source (run commands behaviours source).source := by
  induction commands generalizing behaviours source with
  | nil => exact .done source
  | cons command rest ih =>
    obtain ⟨behave, later, rfl⟩ :=
      List.exists_cons_of_length_pos (Nat.lt_of_lt_of_le (Nat.succ_pos _) enough)
    rw [run_cons]
    cases here : written behave source with
    | none => exact .fails _ (fails_iff.mpr here)
    | some made => exact .passes here (ih later made (Nat.le_of_succ_le_succ enough))

/-- A source comes out formatted or unchanged, whatever the two commands do, unless the first one changes it
and the second one fails on what the first one wrote: that is what comes out then. -/
theorem format_whole_iff (check layout : Behaviour) (later : List Behaviour) (source : String) :
    ((format (check :: layout :: later) source).source =
        ((written check source).bind (written layout)).getD source ↔
      ∀ checked, written check source = some checked → Fails layout checked → checked = source) ∧
    ∀ checked, written check source = some checked → Fails layout checked →
      (format (check :: layout :: later) source).source = checked := by
  have leaves : Leaves [check, layout] source (format (check :: layout :: later) source).source :=
    run_leaves commands (check :: layout :: later) source (Nat.le_add_left 2 later.length)
  generalize (format (check :: layout :: later) source).source = result at leaves ⊢
  cases leaves with
  | fails _ fault => simp [fails_iff.mp fault]
  | @passes _ _ _ made _ writes leaves =>
    cases leaves with
    | fails _ fault => simp [writes, fault, fails_iff.mp fault]
    | passes formats done =>
      cases done
      simp [writes, formats, fails_iff]

/-- A checker that takes out an import that nothing uses. -/
def importRemover : Behaviour := fun source =>
  some { output := if source = "import os\nx=1\n" then "x=1\n" else source }

/-- A formatter that rejects what it is given. -/
def rejecter : Behaviour := fun _ => some { code := 2, errors := "error: Failed to format" }

theorem format_stops_halfway :
    (format [importRemover, rejecter] "import os\nx=1\n").source = "x=1\n" ∧
    (format [importRemover, rejecter] "import os\nx=1\n").source ≠
      ((written importRemover "import os\nx=1\n").bind (written rejecter)).getD "import os\nx=1\n" := by
  decide

end SyncFacade.Formatter
