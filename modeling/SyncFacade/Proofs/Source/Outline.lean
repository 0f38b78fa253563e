import SyncFacade.Proofs.Source.Fragments
import SyncFacade.Proofs.Source.Openings

/-! The outline of a generated module: its lines that are not indented. Documentation can hold any text, with line
breaks of every kind and lines that look like statements, but all of it is written inside the class that it
documents. So the outline tells the imports, the aliases and the classes, in this order, and nothing else. -/
namespace SyncFacade

/-- The line shows something, and what it shows begins at the margin. -/
def AtMargin (line : String) : Prop := line ≠ "" ∧ ¬ Opens " " line

instance (line : String) : Decidable (AtMargin line) := inferInstanceAs (Decidable (_ ∧ _))

theorem Indented.not_atMargin {line : String} (indented : Indented line) : ¬ AtMargin line := by
  rintro ⟨shown, plain⟩
  rcases indented with rfl | behind
  · exact shown rfl
  · exact plain ((List.prefix_append [' '] [' ', ' ', ' ']).trans behind)

theorem Opens.atMargin {start line : String} (opens : Opens start line) {c : Char}
    (begins : start.toList.head? = some c) (other : c ≠ ' ') : AtMargin line := by
  have head := opens.head begins
  constructor
  · rintro rfl
    contradiction
  · intro spaced
    rw [spaced.head (c := ' ') rfl] at head
    exact other (Option.some.inj head).symm

namespace ClassStatement

theorem outline_lines (s : ClassStatement) : s.lines.filter (AtMargin ·) = [s.header] := by
  have header : AtMargin s.header := s.opens_header.atMargin (c := 'c') rfl (by decide)
  have body : s.body.filter (AtMargin ·) = [] :=
    List.filter_eq_nil_iff.mpr fun l inner => by simpa using (s.indented l inner).not_atMargin
  rw [lines, List.filter_cons_of_pos (by simpa using header), body]

theorem outline_statements (statements : List ClassStatement) :
    (statements.flatMap fun s => setOff s.lines).filter (AtMargin ·) = statements.map header := by
  induction statements with
  | nil => rfl
  | cons s rest ih =>
    have blank : ["", ""].filter (AtMargin ·) = [] := by decide
    have first : setOff s.lines = ["", ""] ++ s.lines := rfl
    rw [List.flatMap_cons, first, List.filter_append, List.filter_append, blank, outline_lines, ih]
    rfl

end ClassStatement

theorem outline_importLines (modules : List String) :
    (importLines modules).filter (AtMargin ·) = modules.map ("import " ++ ·) := by
  unfold importLines
  split
  · next none =>
    rw [List.isEmpty_iff.mp none]
    rfl
  · refine List.filter_eq_self.mpr (List.forall_mem_map.mpr fun m _ => decide_eq_true ?_)
    exact (opens_append "import " m).atMargin (c := 'i') rfl (by decide)

theorem outline_aliasImports (aliases : Aliases) (bodies : List Body) (target : Option String)
    (scope : Option ScopeProvider) :
    (aliasImports aliases bodies target scope).filter (AtMargin ·) = aliasImports aliases bodies target scope :=
  List.filter_eq_self.mpr fun _ member =>
    decide_eq_true ((opens_of_mem_aliasImports member).atMargin (c := 'f') rfl (by decide))

/-- A module with the given parts, read at the margin. -/
theorem SourceLayout.outline (layout : SourceLayout)
    (named : layout.aliases.filter (AtMargin ·) = layout.aliases) :
    layout.lines.filter (AtMargin ·) = prologue.dropLast ++ layout.imports.map ("import " ++ ·) ++
      layout.aliases ++ layout.statements.map ClassStatement.header := by
  have start : prologue.filter (AtMargin ·) = prologue.dropLast := by decide
  have aliases : (if layout.aliases.isEmpty then [] else "" :: layout.aliases).filter (AtMargin ·) =
      layout.aliases := by
    split
    · next none => rw [List.isEmpty_iff.mp none, List.filter_nil]
    · rw [List.filter_cons_of_neg (by decide), named]
  simp only [lines, List.filter_append, start, outline_importLines, aliases,
    ClassStatement.outline_statements]

/-- Whatever its classes and their methods are documented with, a module is written, and the lines of its text that
begin at the margin are its two opening lines, its imports, its aliases, and one line for each interface and then for
each wrapper. -/
theorem module_outline {interfaces : List Interface} {wrappers : List Wrapper} (bodied : Bodied wrappers)
    {scope : Option ScopeProvider} (protocols : ∀ i ∈ interfaces, ∀ s ∈ i.fragments, OneLine s)
    (classes : ∀ w ∈ wrappers, ∀ s ∈ w.fragments, OneLine s)
    (provided : ∀ p ∈ scope, ∀ s ∈ p.fragments, OneLine s) (target : Option String) :
    ∃ text, moduleText target interfaces wrappers scope = .ok text ∧
      (Text.split text).filter (AtMargin ·) =
        ["# Generated by suspendwrap - do not edit", "from __future__ import annotations"] ++
        (importedModules target interfaces wrappers).map ("import " ++ ·) ++
        aliasImports (Aliases.choose wrappers scope target) (bodiesOf wrappers) target scope ++
        interfaces.map (·.header target) ++ wrappers.map (·.header target) := by
  obtain ⟨source, written⟩ := exists_moduleLines bodied target interfaces scope
  have plain := oneLine_moduleLines protocols classes provided written
  obtain ⟨statements, related, layout⟩ := exists_lines_layout written
  refine ⟨Text.joinLines source ++ "\n", by rw [moduleText, written]; rfl, ?_⟩
  have last : [""].filter (AtMargin ·) = [] := by decide
  have headers : statements.map ClassStatement.header = wrappers.map (·.header target) :=
    (map_eq_map_of_related (related.imp fun _ _ same => same.header.symm)).symm
  have own : (interfaces.map (·.statement target)).map ClassStatement.header = interfaces.map (·.header target) := by
    rw [List.map_map]
    exact List.map_congr_left fun i _ => i.statement_header target
  rw [ended_of_moduleLines written, Text.split_ended plain, List.filter_append, last, List.append_nil, layout,
    SourceLayout.outline _ (outline_aliasImports _ _ _ _), List.map_append, own, headers, ← List.append_assoc]
  rfl

/-- An interface and a wrapper whose documentation has lines like those of a module. -/
def notesInterface : Interface :=
  { name := "NotesInterface"
    methods := [{ name := "read", result := some { name := "str" } }]
    doc := some "Interface of NotesWrapper.\nclass Notes:\n\n# End of the class." }

def notesWrapper : Wrapper :=
  { name := "NotesWrapper"
    supertypes := [{ name := "NotesInterface", module := some "app.sync" }]
    methods := [
      { name := "read"
        result := some { name := "str" }
        body := some (.deferred (some "scope") { receiver := "wrapped", method := "read" })
        doc := some "Read.\r\nimport os\u2028from os import path" }]
    delegate := { name := "wrapped", type := { name := "Notes", module := some "app.notes" } }
    constructor := { parameters := [{ name := "wrapped" }], assigns := ["wrapped"] } }

theorem notes_outline :
    Bodied [notesWrapper] ∧ (∀ i ∈ [notesInterface], ∀ s ∈ i.fragments, OneLine s) ∧
    (∀ w ∈ [notesWrapper], ∀ s ∈ w.fragments, OneLine s) ∧
    (∀ p ∈ some (ScopeProvider.mk "scope" (some "app.scopes")), ∀ s ∈ p.fragments, OneLine s) ∧
    ∃ text, moduleText (some "app.sync") [notesInterface] [notesWrapper] (some ⟨"scope", some "app.scopes"⟩) =
        .ok text ∧
      (Text.split text).filter (AtMargin ·) = [
        "# Generated by suspendwrap - do not edit",
        "from __future__ import annotations",
        "import app.notes",
        "import suspendwrap.runtime",
        "import typing",
        "from suspendwrap.runtime import DeferredWrapper as _DeferredWrapper",
        "from app.scopes import scope as _scope",
        "class NotesInterface(typing.Protocol):",
        "class NotesWrapper(NotesInterface):"] := by
  have bodied : Bodied [notesWrapper] := by
    simp [Bodied, notesWrapper]
  have protocols : ∀ i ∈ [notesInterface], ∀ s ∈ i.fragments, OneLine s := by decide
  have classes : ∀ w ∈ [notesWrapper], ∀ s ∈ w.fragments, OneLine s := by decide
  have provided : ∀ p ∈ some (ScopeProvider.mk "scope" (some "app.scopes")), ∀ s ∈ p.fragments, OneLine s := by
    simp only [Option.mem_some_iff, forall_eq']
    decide
  have imports : importedModules (some "app.sync") [notesInterface] [notesWrapper] =
      ["app.notes", "suspendwrap.runtime", "typing"] :=
    sortedDistinct_eq (by decide) (by decide) (by decide)
  have outline := module_outline bodied protocols classes provided (some "app.sync")
  rw [imports] at outline
  exact ⟨bodied, protocols, classes, provided, outline⟩

end SyncFacade
