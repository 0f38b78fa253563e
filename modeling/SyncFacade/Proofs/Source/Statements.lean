import SyncFacade.Proofs.Source.Layout

/-! The text of a generated module, read back into its parts: the imports, the aliases, and the class
statements in their order. What stands below the header of a statement is indented, so that none of it begins
another statement. -/
namespace SyncFacade

theorem intercalate_ne_empty {separator s : String} {l : List String} (member : s ∈ l) (shown : s ≠ "") :
    separator.intercalate l ≠ "" := by
  induction l with
  | nil => contradiction
  | cons a rest ih =>
    cases rest with
    | nil =>
      cases List.mem_singleton.mp member
      simpa using shown
    | cons b more =>
      intro empty
      rw [String.intercalate_cons_cons, String.append_eq_empty_iff, String.append_eq_empty_iff] at empty
      rcases List.mem_cons.mp member with rfl | later
      · exact shown empty.1.1
      · exact ih later empty.2

/-- A line that belongs to the class statement above it. -/
def Indented (line : String) : Prop := line = "" ∨ indent.toList <+: line.toList

theorem indented_indent (s : String) : Indented (indent ++ s) := by
  right
  rw [String.toList_append]
  exact List.prefix_append _ _

theorem indented_indent2 (s : String) : Indented (indent2 ++ s) := by
  right
  simp only [indent2, String.toList_append, List.append_assoc]
  exact List.prefix_append _ _

theorem literalLines_indented {margin cs : List Char} {ls : List (List Char)}
    (made : Docstring.literalLines margin cs = some ls) : ∀ l ∈ ls, l = [] ∨ margin <+: l := by
  unfold Docstring.literalLines at made
  intro l member
  split at made
  · contradiction
  · cases made
    cases List.mem_singleton.mp member
    exact Or.inr (by simp [List.append_assoc])
  · rename_i first rest _
    cases made
    rcases List.mem_append.mp member with front | last
    · rcases List.mem_cons.mp front with rfl | inner
      · exact Or.inr (by simp [List.append_assoc])
      · obtain ⟨k, _, rfl⟩ := List.mem_map.mp inner
        by_cases blank : k.isEmpty = true
        · exact Or.inl (by simp [blank])
        · exact Or.inr (by simp [blank])
    · cases List.mem_singleton.mp last
      exact Or.inr (List.prefix_append _ _)

theorem docRows_indented {margin : String} (inside : indent.toList <+: margin.toList) (doc : Option String) :
    ∀ l ∈ docRows margin doc, Indented l := by
  intro l member
  obtain ⟨text, rows, spelled, row, among, rfl⟩ := mem_docRows member
  rcases literalLines_indented spelled row among with rfl | behind
  · exact Or.inl rfl
  · exact Or.inr (by simpa using inside.trans behind)

theorem classDocRows_indented (doc : Option String) : ∀ l ∈ classDocRows doc, Indented l := by
  intro l member
  rcases mem_classDocRows member with rfl | inner
  · exact Or.inl rfl
  · exact docRows_indented (List.prefix_refl _) doc l inner

theorem constructor_indented (c : Constructor) (field : DelegateField) (target : Option String) :
    ∀ l ∈ c.lines field target, Indented l := by
  intro l member
  rcases List.mem_append.mp member with first | later
  · cases List.mem_singleton.mp first
    simp only [String.append_assoc]
    exact indented_indent _
  · split at later
    · cases List.mem_singleton.mp later
      exact indented_indent2 _
    · obtain ⟨name, _, rfl⟩ := List.mem_map.mp later
      simp only [String.append_assoc]
      exact indented_indent2 _

theorem method_indented {m : Method} {field : DelegateField} {target : Option String} {aliases : Aliases}
    {ls : List String} (written : m.lines field target aliases = .ok ls) : ∀ l ∈ ls, Indented l := by
  obtain ⟨body, _, rfl⟩ := exists_of_map_ok (m.lines_eq .. ▸ written)
  intro l member
  simp only [List.mem_append, List.mem_singleton] at member
  rcases member with ((mark | rfl) | doc) | rfl
  · unfold Method.decorators at mark
    split at mark
    · cases List.mem_singleton.mp mark
      exact indented_indent _
    · contradiction
  · exact indented_indent _
  · exact docRows_indented (by decide) m.doc l doc
  · rw [String.append_assoc]
    exact indented_indent2 _

/-- A class statement: its name, its bases as they are written, and the lines below the header. -/
structure ClassStatement where
  name : String
  bases : List String
  body : List String
  indented : ∀ line ∈ body, Indented line

namespace ClassStatement

def header (s : ClassStatement) : String :=
  let bases := ", ".intercalate s.bases
  "class " ++ s.name ++ (if bases = "" then "" else "(" ++ bases ++ ")") ++ ":"

def lines (s : ClassStatement) : List String := s.header :: s.body

end ClassStatement

namespace Interface

def statement (i : Interface) (target : Option String) : ClassStatement where
  name := i.name
  bases := i.supertypes.map (·.render target) ++ [protocolBase]
  body := (i.rows target).tail
  indented := by
    intro l member
    simp only [rows, opening, methodLines, List.cons_append, List.nil_append, List.tail_cons, List.mem_append,
      List.mem_map] at member
    rcases member with (doc | pass) | ⟨m, _, rfl⟩
    · exact classDocRows_indented i.doc l doc
    · split at pass
      · cases List.mem_singleton.mp pass
        exact indented_indent _
      · contradiction
    · rw [String.append_assoc]
      exact indented_indent _

/-- The line that opens the class of an interface. -/
def header (i : Interface) (target : Option String) : String :=
  "class " ++ i.name ++ "(" ++ ", ".intercalate (i.supertypes.map (·.render target) ++ [protocolBase]) ++ "):"

theorem statement_header (i : Interface) (target : Option String) :
    (i.statement target).header = i.header target := by
  have shown : ", ".intercalate (i.supertypes.map (·.render target) ++ [protocolBase]) ≠ "" :=
    intercalate_ne_empty (List.mem_append_right _ (List.mem_singleton_self _)) (by decide)
  have closing : "):" = ")" ++ ":" := by decide
  rw [ClassStatement.header, statement, if_neg shown, header, closing]
  simp only [String.append_assoc]

theorem statement_lines (i : Interface) (target : Option String) :
    (i.statement target).lines = i.rows target := by
  rw [ClassStatement.lines, statement_header]
  rfl

end Interface

namespace Wrapper

def WrittenAs (target : Option String) (w : Wrapper) (s : ClassStatement) : Prop :=
  s.name = w.name ∧ s.bases = w.supertypes.map (·.render target)

theorem WrittenAs.header {target : Option String} {w : Wrapper} {s : ClassStatement}
    (written : w.WrittenAs target s) : s.header = w.header target := by
  rw [ClassStatement.header, written.1, written.2]
  rfl

theorem exists_statement {w : Wrapper} {target : Option String} {aliases : Aliases} {ls : List String}
    (written : w.lines target aliases = .ok ls) :
    ∃ s : ClassStatement, ls = s.lines ∧ w.WrittenAs target s := by
  obtain ⟨methods, done, rfl⟩ := exists_of_map_ok (w.lines_eq .. ▸ written)
  have indented : ∀ l ∈ classDocRows w.doc ++ w.constructor.lines w.delegate target ++
      methods.flatMap fun ls => "" :: ls, Indented l := by
    intro l member
    simp only [List.mem_append, List.mem_flatMap, List.mem_cons] at member
    rcases member with (doc | constructed) | ⟨block, among, rfl | inner⟩
    · exact classDocRows_indented w.doc l doc
    · exact constructor_indented _ _ _ l constructed
    · exact Or.inl rfl
    · obtain ⟨m, _, lines⟩ := exists_related_left (mapM_ok_iff.mp done) block among
      exact method_indented lines l inner
  refine ⟨⟨w.name, w.supertypes.map (·.render target), _, indented⟩, ?_, rfl, rfl⟩
  simp only [opening, List.append_assoc]
  rfl

end Wrapper

/-- The parts of the text of a module. -/
structure SourceLayout where
  imports : List String
  aliases : List String
  statements : List ClassStatement

namespace SourceLayout

def lines (l : SourceLayout) : List String :=
  prologue ++ importLines l.imports ++ (if l.aliases.isEmpty then [] else "" :: l.aliases) ++
    l.statements.flatMap fun s => setOff s.lines

def text (l : SourceLayout) : String := Text.joinLines l.lines ++ "\n"

end SourceLayout

/-- The bodies of all methods of some wrappers. -/
def bodiesOf (wrappers : List Wrapper) : List Body :=
  wrappers.flatMap fun w => w.methods.filterMap Method.body

/-- The statements of the interfaces stand before those of the wrappers, and nothing else is a statement. -/
theorem exists_lines_layout {target : Option String} {interfaces : List Interface} {wrappers : List Wrapper}
    {scope : Option ScopeProvider} {source : List String}
    (written : moduleLines target interfaces wrappers scope = .ok source) :
    ∃ classes : List ClassStatement, List.Forall₂ (Wrapper.WrittenAs target) wrappers classes ∧
      source = SourceLayout.lines {
        imports := importedModules target interfaces wrappers
        aliases := aliasImports (Aliases.choose wrappers scope target) (bodiesOf wrappers) target scope
        statements := interfaces.map (·.statement target) ++ classes } := by
  obtain ⟨blocks, done, rfl⟩ := exists_of_map_ok (moduleLines_eq .. ▸ written)
  obtain ⟨classes, blockLines, named⟩ := exists_third (mapM_ok_iff.mp done)
    fun _ _ _ lines => Wrapper.exists_statement lines
  have same : blocks = classes.map ClassStatement.lines := by
    rw [← map_eq_map_of_related blockLines, List.map_id']
  refine ⟨classes, named, ?_⟩
  rw [same, SourceLayout.lines, bodiesOf]
  simp only [List.flatMap_append, List.flatMap_map, Interface.statement_lines, List.append_assoc]

theorem exists_layout {target : Option String} {interfaces : List Interface} {wrappers : List Wrapper}
    {scope : Option ScopeProvider} {text : String}
    (written : moduleText target interfaces wrappers scope = .ok text) :
    ∃ (layout : SourceLayout) (classes : List ClassStatement), text = layout.text ∧
      layout.imports = importedModules target interfaces wrappers ∧
      layout.aliases = aliasImports (Aliases.choose wrappers scope target) (bodiesOf wrappers) target scope ∧
      layout.statements = interfaces.map (·.statement target) ++ classes ∧
      List.Forall₂ (Wrapper.WrittenAs target) wrappers classes := by
  obtain ⟨source, made, rfl⟩ := exists_of_map_ok written
  obtain ⟨classes, named, rfl⟩ := exists_lines_layout made
  exact ⟨_, classes, rfl, rfl, rfl, rfl, named⟩

end SyncFacade
