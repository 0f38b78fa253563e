import SyncFacade.Proofs.Source.Statements

/-! How the lines of a generated module begin. Whatever its documentation says, a line that is not indented is
one of the prologue, an import, the import of an alias or the header of a class. So the lines that begin with
something else are known before anything is generated. -/
namespace SyncFacade

/-- The line begins with the given text. -/
def Opens (start line : String) : Prop := start.toList <+: line.toList

instance (start line : String) : Decidable (Opens start line) := inferInstanceAs (Decidable (_ <+: _))

theorem opens_append (start rest : String) : Opens start (start ++ rest) := by
  rw [Opens, String.toList_append]
  exact List.prefix_append _ _

theorem Opens.of_append {start more line : String} (opens : Opens (start ++ more) line) :
    Opens start line := by
  rw [Opens, String.toList_append] at opens
  exact (List.prefix_append _ _).trans opens

theorem Opens.head {start line : String} (opens : Opens start line) {c : Char}
    (begins : start.toList.head? = some c) : line.toList.head? = some c := by
  obtain ⟨rest, spelled⟩ := opens
  rw [← spelled, List.head?_append, begins]
  rfl

theorem Indented.head {line : String} (indented : Indented line) :
    line.toList.head? = none ∨ line.toList.head? = some ' ' := by
  rcases indented with rfl | behind
  · exact Or.inl rfl
  · exact Or.inr (Opens.head behind rfl)

namespace ClassStatement

theorem opens_header (s : ClassStatement) : Opens "class " s.header := by
  simp only [header, String.append_assoc]
  exact opens_append _ _

theorem head_of_mem_lines {s : ClassStatement} {line : String} (member : line ∈ s.lines) :
    line.toList.head? ∈ [none, some ' ', some 'c'] := by
  rcases List.mem_cons.mp member with rfl | inner
  · have begins : s.header.toList.head? = some 'c' := s.opens_header.head rfl
    simp [begins]
  · rcases (s.indented line inner).head with empty | space <;> simp [*]

end ClassStatement

theorem head_of_mem_setOff {ls : List String} {s : ClassStatement} (same : ls = s.lines) {line : String}
    (member : line ∈ setOff ls) : line.toList.head? ∈ [none, some ' ', some 'c'] := by
  simp only [setOff, List.mem_cons] at member
  rcases member with rfl | rfl | inner
  · exact List.mem_cons_self
  · exact List.mem_cons_self
  · exact s.head_of_mem_lines (same ▸ inner)

theorem head_of_mem_importLines {modules : List String} {line : String}
    (member : line ∈ importLines modules) : line.toList.head? ∈ [none, some 'i'] := by
  unfold importLines at member
  split at member
  · cases List.mem_singleton.mp member
    exact List.mem_cons_self
  · obtain ⟨m, _, rfl⟩ := List.mem_map.mp member
    have begins : ("import " ++ m).toList.head? = some 'i' := (opens_append "import " m).head rfl
    rw [begins]
    exact List.mem_cons_of_mem _ List.mem_cons_self

theorem opens_aliasImport (module name localName : String) :
    Opens "from " (aliasImport module name localName) := by
  simp only [aliasImport, String.append_assoc]
  exact opens_append _ _

theorem opens_of_mem_aliasImports {aliases : Aliases} {bodies : List Body} {target : Option String}
    {scope : Option ScopeProvider} {line : String}
    (member : line ∈ aliasImports aliases bodies target scope) : Opens "from " line := by
  have each : ∃ module name localName, line = aliasImport module name localName := by
    simp only [aliasImports, List.mem_append] at member
    rcases member with (deferred | stream) | imported
    · split at deferred
      · exact ⟨_, _, _, List.mem_singleton.mp deferred⟩
      · contradiction
    · split at stream
      · exact ⟨_, _, _, List.mem_singleton.mp stream⟩
      · contradiction
    · split at imported
      · exact ⟨_, _, _, List.mem_singleton.mp imported⟩
      · contradiction
  obtain ⟨module, name, localName, rfl⟩ := each
  exact opens_aliasImport module name localName

section Module

variable {target : Option String} {interfaces : List Interface} {wrappers : List Wrapper}
  {scope : Option ScopeProvider} {source : List String}
  (written : moduleLines target interfaces wrappers scope = .ok source)
include written

/-- The lines that begin like none of an import or a class are those of the prologue and of the aliases. -/
theorem filter_moduleLines {start : String} {c : Char} (begins : start.toList.head? = some c)
    (other : c ∉ [' ', 'i', 'c']) :
    source.filter (Opens start) = prologue.filter (Opens start) ++
      (aliasImports (Aliases.choose wrappers scope target) (bodiesOf wrappers) target scope).filter
        (Opens start) := by
  obtain ⟨blocks, done, rfl⟩ := exists_of_map_ok (moduleLines_eq .. ▸ written)
  -- A line with another first character is none of those that are looked for.
  have none_of : ∀ (ls : List String) (heads : List (Option Char)), some c ∉ heads →
      (∀ l ∈ ls, l.toList.head? ∈ heads) → ls.filter (Opens start) = [] := by
    intro ls heads apart each
    refine List.filter_eq_nil_iff.mpr fun l member opens => apart ?_
    exact (Opens.head (of_decide_eq_true opens) begins) ▸ each l member
  simp only [List.mem_cons, List.not_mem_nil, or_false, not_or] at other
  have imports := none_of (importLines (importedModules target interfaces wrappers)) [none, some 'i']
    (by simp [other]) fun l => head_of_mem_importLines
  have protocols := none_of (interfaces.flatMap fun i => setOff (i.rows target))
    [none, some ' ', some 'c'] (by simp [other]) fun l member => by
      obtain ⟨i, _, inside⟩ := List.mem_flatMap.mp member
      exact head_of_mem_setOff (i.statement_lines target).symm inside
  have classes := none_of (blocks.flatMap setOff) [none, some ' ', some 'c'] (by simp [other])
    fun l member => by
      obtain ⟨block, among, inside⟩ := List.mem_flatMap.mp member
      obtain ⟨w, _, lines⟩ := exists_related_left (mapM_ok_iff.mp done) block among
      obtain ⟨s, same, _⟩ := w.exists_statement lines
      exact head_of_mem_setOff same inside
  have blank := none_of [""] [none] (by simp) (by simp)
  simp only [List.filter_append, imports, classes, protocols, List.append_nil]
  congr 1
  change (if List.isEmpty (aliasImports _ (bodiesOf wrappers) target scope) then [] else
    [""] ++ aliasImports _ (bodiesOf wrappers) target scope).filter _ = _
  split
  · next empty => rw [List.isEmpty_iff.mp empty]
  · rw [List.filter_append, blank, List.nil_append]

/-- What a module takes over by name is the meaning of annotations, and the aliases. -/
theorem from_lines : source.filter (Opens "from ") = "from __future__ import annotations" ::
    aliasImports (Aliases.choose wrappers scope target) (bodiesOf wrappers) target scope := by
  have all := List.filter_eq_self.mpr fun l (member : l ∈ aliasImports
      (Aliases.choose wrappers scope target) (bodiesOf wrappers) target scope) =>
    decide_eq_true (opens_of_mem_aliasImports member)
  rw [filter_moduleLines written (c := 'f') rfl (by decide), all]
  rfl

/-- Any other beginning is that of a line of the prologue. -/
theorem mem_prologue_of_opens {start line : String} {c : Char} (begins : start.toList.head? = some c)
    (other : c ∉ [' ', 'i', 'c', 'f']) (member : line ∈ source) (opens : Opens start line) :
    line ∈ prologue := by
  simp only [List.mem_cons, List.not_mem_nil, or_false, not_or] at other
  have listed : line ∈ source.filter (Opens start) :=
    List.mem_filter.mpr ⟨member, decide_eq_true opens⟩
  rw [filter_moduleLines written begins (by simp [other]), List.mem_append] at listed
  rcases listed with first | imported
  · exact (List.mem_filter.mp first).1
  · have taken := (opens_of_mem_aliasImports (List.mem_filter.mp imported).1).head (c := 'f') rfl
    rw [opens.head begins] at taken
    exact absurd (Option.some.inj taken) other.2.2.2

end Module

end SyncFacade
