import SyncFacade.Proofs.Alias.Capture
import SyncFacade.Proofs.Mirror
import SyncFacade.Proofs.Source.Imports
import SyncFacade.Proofs.Source.Pieces

/-! The text of a module in pieces. What is imported is collected from descriptions, apart from what is written;
still it is what qualifies something in the text, and the module of protocols. -/
namespace SyncFacade

open Piece

/-- Lines in which nothing is qualified. -/
def plainLines (ls : List String) : List (List Piece) := ls.map fun s => [.plain s]

/-- A module qualifies something in one of the lines. -/
def Qualifies (module : String) (lines : List (List Piece)) : Prop :=
  ∃ line ∈ lines, Piece.qualifier module ∈ line

section Lines

variable {module : String}

@[simp] theorem map_join_plainLines (ls : List String) : (plainLines ls).map join = ls := by
  simp [plainLines, Function.comp_def]

@[simp] theorem not_qualifies_plainLines (ls : List String) : ¬ Qualifies module (plainLines ls) := by
  simp [Qualifies, plainLines]

@[simp] theorem qualifies_append {as bs : List (List Piece)} :
    Qualifies module (as ++ bs) ↔ Qualifies module as ∨ Qualifies module bs := by
  simp only [Qualifies, List.mem_append, or_and_right, exists_or]

@[simp] theorem not_qualifies_nil : ¬ Qualifies module [] := by
  simp [Qualifies]

@[simp] theorem qualifies_cons {line : List Piece} {ls : List (List Piece)} :
    Qualifies module (line :: ls) ↔ Piece.qualifier module ∈ line ∨ Qualifies module ls := by
  simp [Qualifies]

theorem qualifies_map {α : Type} {l : List α} {f : α → List Piece} :
    Qualifies module (l.map f) ↔ ∃ a ∈ l, Piece.qualifier module ∈ f a := by
  simp only [Qualifies, List.mem_map, exists_exists_and_eq_and]

theorem qualifies_flatMap {α : Type} {l : List α} {f : α → List (List Piece)} :
    Qualifies module (l.flatMap f) ↔ ∃ a ∈ l, Qualifies module (f a) := by
  simp only [Qualifies, List.mem_flatMap]
  constructor
  · rintro ⟨line, ⟨a, member, inside⟩, shown⟩
    exact ⟨a, member, line, inside, shown⟩
  · rintro ⟨a, member, line, inside, shown⟩
    exact ⟨line, ⟨a, member, inside⟩, shown⟩

end Lines

namespace Method

def decoratorPieces (m : Method) : List (List Piece) :=
  if m.overrides then [[.plain (indent ++ "@"), .qualifier overrideModule, .plain "override"]] else []

def linePieces (m : Method) (field : DelegateField) (target : Option String) (aliases : Aliases) :
    Except GenerationError (List (List Piece)) :=
  (renderBody m.body field aliases).map fun body =>
    m.decoratorPieces ++ [.plain indent :: m.headerPieces target] ++
      plainLines (docRows indent2 m.doc ++ [indent2 ++ "return " ++ body])

theorem lines_eq_join (m : Method) (field : DelegateField) (target : Option String) (aliases : Aliases) :
    m.lines field target aliases = (m.linePieces field target aliases).map (List.map join) := by
  have mark : m.decoratorPieces.map join = m.decorators := by
    unfold decoratorPieces decorators
    split <;> rfl
  cases written : renderBody m.body field aliases with
  | error e => simp only [lines_eq, linePieces, written, Except.map]
  | ok body => simp [lines_eq, linePieces, written, Except.map, mark, join_headerPieces]

theorem qualifies_linePieces {m : Method} {field : DelegateField} {target : Option String}
    {aliases : Aliases} {ls : List (List Piece)} (written : m.linePieces field target aliases = .ok ls)
    {module : String} :
    Qualifies module ls ↔
      m.overrides = true ∧ module = overrideModule ∨ module ∈ m.modules ∧ some module ≠ target := by
  obtain ⟨body, _, rfl⟩ := exists_of_map_ok written
  have mark : Qualifies module m.decoratorPieces ↔ m.overrides = true ∧ module = overrideModule := by
    by_cases marked : m.overrides = true
    · simp [decoratorPieces, marked]
    · simp [decoratorPieces, marked]
  simp [mark, qualifier_mem_headerPieces]

end Method

namespace Interface

def linePieces (i : Interface) (target : Option String) : List (List Piece) :=
  [.plain ("class " ++ i.name ++ "(") ::
      separated (i.supertypes.map (·.pieces target) ++ [[.qualifier "typing", .plain "Protocol"]]) ++
      [.plain "):"]] ++
    plainLines (classDocRows i.doc ++
      (if i.methods.isEmpty && (i.doc.getD "").isEmpty then [indent ++ "pass"] else [])) ++
    i.methods.map fun m => .plain indent :: m.headerPieces target ++ [.plain " ..."]

theorem rows_eq_join (i : Interface) (target : Option String) : i.rows target = (i.linePieces target).map join := by
  have methods : (i.methods.map fun m => .plain indent :: m.headerPieces target ++ [.plain " ..."]).map join =
      i.methodLines target := by
    simp [methodLines, Method.join_headerPieces, String.append_assoc]
  have bases : (i.supertypes.map fun t => join (t.pieces target)) = i.supertypes.map (·.render target) :=
    List.map_congr_left fun t _ => t.join_pieces target
  have base : join [.qualifier "typing", .plain "Protocol"] = protocolBase := rfl
  rw [rows, opening, linePieces, List.map_append, List.map_append, methods, map_join_plainLines]
  simp [bases, base, Function.comp_def, String.append_assoc]

theorem qualifies_linePieces {i : Interface} {target : Option String} {module : String} :
    Qualifies module (i.linePieces target) ↔
      module = "typing" ∨ module ∈ i.modules ∧ some module ≠ target := by
  have methods : Qualifies module
        (i.methods.map fun m => .plain indent :: m.headerPieces target ++ [.plain " ..."]) ↔
      (∃ m ∈ i.methods, module ∈ m.modules) ∧ some module ≠ target := by
    have header : ∀ m : Method, Piece.qualifier module ∈
        .plain indent :: m.headerPieces target ++ [.plain " ..."] ↔
          module ∈ m.modules ∧ some module ≠ target := by
      intro m
      rw [← Method.qualifier_mem_headerPieces]
      simp
    simp only [qualifies_map, header, ← and_assoc, exists_and_right]
  have opening : ∀ before after : String, Piece.qualifier module ∈ .plain before ::
        separated (i.supertypes.map (·.pieces target) ++ [[.qualifier "typing", .plain "Protocol"]]) ++
          [.plain after] ↔
      (∃ t ∈ i.supertypes, module ∈ t.modules) ∧ some module ≠ target ∨ module = "typing" := by
    intro before after
    rw [← TypeRef.qualifier_mem_map_pieces]
    simp [qualifier_mem_separated, or_and_right, exists_or]
  have collected : module ∈ i.modules ↔
      (∃ t ∈ i.supertypes, module ∈ t.modules) ∨ ∃ m ∈ i.methods, module ∈ m.modules := by
    rw [modules, List.mem_append, List.mem_flatMap, List.mem_flatMap]
  rw [linePieces, qualifies_append, qualifies_append, qualifies_cons, methods, collected, opening]
  simp only [not_qualifies_nil, not_qualifies_plainLines, or_false]
  rw [or_and_right, or_right_comm, or_comm]

end Interface

namespace Constructor

def linePieces (c : Constructor) (field : DelegateField) (target : Option String) : List (List Piece) :=
  [.plain (indent ++ "def __init__(self, ") :: Parameter.pieces target c.parameters ++ [.plain "):"]] ++
    plainLines (if c.assigns.isEmpty then [indent2 ++ "pass"]
      else c.assigns.map fun name => indent2 ++ "self." ++ field.attribute name ++ " = " ++ name)

theorem lines_eq_join (c : Constructor) (field : DelegateField) (target : Option String) :
    c.lines field target = (c.linePieces field target).map join := by
  simp [lines, linePieces, String.append_assoc]

theorem qualifies_linePieces {c : Constructor} {field : DelegateField} {target : Option String}
    {module : String} :
    Qualifies module (c.linePieces field target) ↔
      (∃ p ∈ c.parameters, module ∈ annotationModules p.type) ∧ some module ≠ target := by
  rw [← Parameter.qualifier_mem_pieces]
  simp [linePieces]

end Constructor

namespace Wrapper

def headerPieces (w : Wrapper) (target : Option String) : List Piece :=
  .plain ("class " ++ w.name) ::
    (if ", ".intercalate (w.supertypes.map (·.render target)) = "" then []
      else .plain "(" :: separated (w.supertypes.map (·.pieces target)) ++ [.plain ")"]) ++ [.plain ":"]

def linePieces (w : Wrapper) (target : Option String) (aliases : Aliases) :
    Except GenerationError (List (List Piece)) :=
  (w.methods.mapM fun m : Method => m.linePieces w.delegate target aliases).map fun methods =>
    [w.headerPieces target] ++
      plainLines (classDocRows w.doc) ++ w.constructor.linePieces w.delegate target ++ methods.flatMap fun ls => [] :: ls

theorem join_bases (w : Wrapper) (target : Option String) :
    join (separated (w.supertypes.map (·.pieces target))) =
      ", ".intercalate (w.supertypes.map (·.render target)) := by
  rw [join_separated, List.map_map]
  exact congrArg _ (List.map_congr_left fun t _ => t.join_pieces target)

theorem join_headerPieces (w : Wrapper) (target : Option String) :
    join (w.headerPieces target) = w.header target := by
  by_cases bare : ", ".intercalate (w.supertypes.map (·.render target)) = ""
  · simp [headerPieces, header, bare]
  · simp [headerPieces, header, bare, -join_separated, join_bases, String.append_assoc]

theorem qualifier_mem_headerPieces {w : Wrapper} {target : Option String} {module : String} :
    Piece.qualifier module ∈ w.headerPieces target ↔
      (∃ t ∈ w.supertypes, module ∈ t.modules) ∧ some module ≠ target := by
  rw [← TypeRef.qualifier_mem_map_pieces, ← qualifier_mem_separated]
  by_cases bare : ", ".intercalate (w.supertypes.map (·.render target)) = ""
  · have none : Piece.qualifier module ∉ separated (w.supertypes.map (·.pieces target)) :=
      fun member => join_ne_empty member ((w.join_bases target).trans bare)
    simpa [headerPieces, bare] using none
  · simp [headerPieces, bare]

theorem lines_eq_join (w : Wrapper) (target : Option String) (aliases : Aliases) :
    w.lines target aliases = (w.linePieces target aliases).map (List.map join) := by
  have methods : (w.methods.mapM fun m : Method => m.lines w.delegate target aliases) =
      (w.methods.mapM fun m : Method => m.linePieces w.delegate target aliases).map
        (List.map (List.map join)) := by
    rw [← mapM_map]
    simp only [Method.lines_eq_join]
  rw [lines_eq, linePieces, methods]
  cases w.methods.mapM fun m : Method => m.linePieces w.delegate target aliases with
  | error e => rfl
  | ok blocks =>
    have spaced : (blocks.map (List.map join)).flatMap (fun ls => "" :: ls) =
        (blocks.flatMap fun ls => [] :: ls).map join := by
      rw [List.flatMap_map, List.map_flatMap]
      rfl
    simp [opening, Except.map, join_headerPieces, Constructor.lines_eq_join, spaced]

theorem qualifies_linePieces {w : Wrapper} {target : Option String} {aliases : Aliases}
    {ls : List (List Piece)} (written : w.linePieces target aliases = .ok ls) {module : String} :
    Qualifies module ls ↔
      ((∃ t ∈ w.supertypes, module ∈ t.modules) ∨
        (∃ p ∈ w.constructor.parameters, module ∈ annotationModules p.type) ∨
        ∃ m ∈ w.methods, module ∈ m.modules) ∧ some module ≠ target ∨
      module = overrideModule ∧ ∃ m ∈ w.methods, m.overrides = true := by
  obtain ⟨blocks, done, rfl⟩ := exists_of_map_ok written
  have related := mapM_ok_iff.mp done
  have methods : (∃ block ∈ blocks, Qualifies module block) ↔
      (module = overrideModule ∧ ∃ m ∈ w.methods, m.overrides = true) ∨
        (∃ m ∈ w.methods, module ∈ m.modules) ∧ some module ≠ target := by
    constructor
    · rintro ⟨block, member, shown⟩
      obtain ⟨m, among, lines⟩ := exists_related_left related block member
      rcases (Method.qualifies_linePieces lines).mp shown with ⟨marked, rfl⟩ | ⟨inside, foreign⟩
      · exact Or.inl ⟨rfl, m, among, marked⟩
      · exact Or.inr ⟨⟨m, among, inside⟩, foreign⟩
    · rintro (⟨rfl, m, among, marked⟩ | ⟨⟨m, among, inside⟩, foreign⟩)
      · obtain ⟨block, member, lines⟩ := exists_related_right related m among
        exact ⟨block, member, (Method.qualifies_linePieces lines).mpr (Or.inl ⟨marked, rfl⟩)⟩
      · obtain ⟨block, member, lines⟩ := exists_related_right related m among
        exact ⟨block, member, (Method.qualifies_linePieces lines).mpr (Or.inr ⟨inside, foreign⟩)⟩
  simp only [qualifies_append, qualifies_cons, not_qualifies_nil, not_qualifies_plainLines, or_false,
    qualifier_mem_headerPieces, Constructor.qualifies_linePieces, qualifies_flatMap, List.not_mem_nil,
    false_or, methods]
  rw [or_left_comm, ← or_and_right, ← or_and_right, or_comm, or_assoc]

end Wrapper

/-- The lines of a module, in pieces. -/
def modulePieces (target : Option String) (interfaces : List Interface) (wrappers : List Wrapper)
    (scope : Option ScopeProvider) : Except GenerationError (List (List Piece)) :=
  let aliases := Aliases.choose wrappers scope target
  let bodies := wrappers.flatMap fun w => w.methods.filterMap Method.body
  let imports := aliasImports aliases bodies target scope
  (wrappers.mapM fun w : Wrapper => w.linePieces target aliases).map fun classes =>
    plainLines (prologue ++ importLines (importedModules target interfaces wrappers) ++
        (if imports.isEmpty then [] else "" :: imports)) ++
      interfaces.flatMap (fun i => [] :: [] :: i.linePieces target) ++
      classes.flatMap fun ls => [] :: [] :: ls

theorem moduleLines_eq_join (target : Option String) (interfaces : List Interface) (wrappers : List Wrapper)
    (scope : Option ScopeProvider) :
    moduleLines target interfaces wrappers scope =
      (modulePieces target interfaces wrappers scope).map (List.map join) := by
  let aliases := Aliases.choose wrappers scope target
  have classes : (wrappers.mapM fun w : Wrapper => w.lines target aliases) =
      (wrappers.mapM fun w : Wrapper => w.linePieces target aliases).map (List.map (List.map join)) := by
    rw [← mapM_map]
    simp only [Wrapper.lines_eq_join]
  have above : interfaces.flatMap (fun i => setOff (i.rows target)) =
      (interfaces.flatMap fun i => [] :: [] :: i.linePieces target).map join := by
    rw [List.map_flatMap]
    simp only [Interface.rows_eq_join]
    rfl
  rw [moduleLines_eq, classes, modulePieces]
  cases wrappers.mapM fun w : Wrapper => w.linePieces target aliases with
  | error e => rfl
  | ok blocks =>
    have below : (blocks.map (List.map join)).flatMap setOff =
        (blocks.flatMap fun ls => [] :: [] :: ls).map join := by
      rw [List.flatMap_map, List.map_flatMap]
      rfl
    simp only [Except.map, List.map_append, map_join_plainLines, above, below]

theorem qualifies_modulePieces {target : Option String} {interfaces : List Interface}
    {wrappers : List Wrapper} {scope : Option ScopeProvider} {ls : List (List Piece)}
    (written : modulePieces target interfaces wrappers scope = .ok ls) {module : String} {q : Wrapper → Prop}
    (each : ∀ w ∈ wrappers, ∀ block,
      w.linePieces target (Aliases.choose wrappers scope target) = .ok block →
        (Qualifies module block ↔ q w)) :
    Qualifies module ls ↔
      (∃ i ∈ interfaces, module = "typing" ∨ module ∈ i.modules ∧ some module ≠ target) ∨
        ∃ w ∈ wrappers, q w := by
  obtain ⟨blocks, done, rfl⟩ := exists_of_map_ok written
  have related := mapM_ok_iff.mp done
  have classes : (∃ block ∈ blocks, Qualifies module block) ↔ ∃ w ∈ wrappers, q w := by
    constructor
    · rintro ⟨block, member, shown⟩
      obtain ⟨w, among, lines⟩ := exists_related_left related block member
      exact ⟨w, among, (each w among block lines).mp shown⟩
    · rintro ⟨w, among, holds⟩
      obtain ⟨block, member, lines⟩ := exists_related_right related w among
      exact ⟨block, member, (each w among block lines).mpr holds⟩
  simp only [qualifies_append, qualifies_flatMap, qualifies_cons, List.not_mem_nil, false_or,
    not_qualifies_plainLines, Interface.qualifies_linePieces, classes]

/-- What a body needs for its wrapper is named in the result of its method already. -/
theorem WrapsMethod.mem_wrapperModules {context : Context} {m n : Method} (wraps : WrapsMethod context m n)
    {module : String} :
    module ∈ n.wrapperModules ↔ module ∈ n.modules ∨ n.overrides = true ∧ module = overrideModule := by
  obtain ⟨body, present, adapts⟩ := wraps.adapts
  have named : ∀ module ∈ body.modules, module ∈ annotationModules n.result := by
    intro module member
    generalize n.result = result at adapts
    cases adapts with
    | direct => contradiction
    | deferred =>
      cases List.mem_singleton.mp member
      exact TypeRef.mem_modules rfl (by decide)
    | streaming =>
      cases List.mem_singleton.mp member
      exact TypeRef.mem_modules rfl (by decide)
  have mark : module ∈ (if n.overrides then [overrideModule] else []) ↔
      n.overrides = true ∧ module = overrideModule := by
    by_cases marked : n.overrides = true <;> simp [marked]
  rw [Method.wrapperModules, List.mem_append, List.mem_append, mark, present]
  constructor
  · rintro (either | inBody)
    · exact either
    · exact Or.inl (List.mem_append_right _ (named module inBody))
  · exact Or.inl

theorem WrapsClass.qualifies_linePieces {c : ClassInfo} {context : Context} {w : Wrapper}
    (wraps : WrapsClass c context w) {target : Option String} (unmarked : target ≠ some overrideModule)
    {aliases : Aliases} {block : List (List Piece)} (written : w.linePieces target aliases = .ok block)
    {module : String} :
    Qualifies module block ↔ module ∈ w.modules ∧ some module ≠ target := by
  have built : (∃ p ∈ w.constructor.parameters, module ∈ annotationModules p.type) ↔
      module ∈ w.delegate.type.modules := by
    rw [wraps.construction, wraps.delegate]
    simp [annotationModules]
  have methods : module ∈ w.methods.flatMap Method.wrapperModules ↔
      (∃ m ∈ w.methods, module ∈ m.modules) ∨
        module = overrideModule ∧ ∃ m ∈ w.methods, m.overrides = true := by
    rw [List.mem_flatMap]
    constructor
    · rintro ⟨n, member, inside⟩
      obtain ⟨m, _, method⟩ := exists_related_left wraps.methods n member
      rcases method.mem_wrapperModules.mp inside with own | ⟨marked, rfl⟩
      · exact Or.inl ⟨n, member, own⟩
      · exact Or.inr ⟨rfl, n, member, marked⟩
    · rintro (⟨n, member, own⟩ | ⟨rfl, n, member, marked⟩)
      · exact ⟨n, member, List.mem_append_left _ (List.mem_append_left _ own)⟩
      · obtain ⟨m, _, method⟩ := exists_related_left wraps.methods n member
        exact ⟨n, member, method.mem_wrapperModules.mpr (Or.inr ⟨marked, rfl⟩)⟩
  rw [Wrapper.qualifies_linePieces written, Wrapper.modules, List.mem_append, List.mem_append,
    List.mem_flatMap, methods, built]
  have apart : module = overrideModule → some module ≠ target := by
    rintro rfl
    exact Ne.symm unmarked
  constructor
  · rintro (⟨bases | field | method, foreign⟩ | marked)
    · exact ⟨Or.inl (Or.inl bases), foreign⟩
    · exact ⟨Or.inl (Or.inr field), foreign⟩
    · exact ⟨Or.inr (Or.inl method), foreign⟩
    · exact ⟨Or.inr (Or.inr marked), apart marked.1⟩
  · rintro ⟨(bases | field) | method | marked, foreign⟩
    · exact Or.inl ⟨Or.inl bases, foreign⟩
    · exact Or.inl ⟨Or.inr (Or.inl field), foreign⟩
    · exact Or.inl ⟨Or.inr (Or.inr method), foreign⟩
    · exact Or.inr marked

theorem not_mem_annotationModules (t : Option TypeRef) : "" ∉ annotationModules t := by
  cases t with
  | none => exact List.not_mem_nil
  | some t => exact t.not_mem_modules

theorem not_mem_supertypeModules (ts : List TypeRef) : "" ∉ ts.flatMap TypeRef.modules := by
  intro member
  obtain ⟨t, _, inside⟩ := List.mem_flatMap.mp member
  exact t.not_mem_modules inside

theorem Method.not_mem_modules (m : Method) : "" ∉ m.modules := by
  intro member
  rcases List.mem_append.mp member with parameter | result
  · obtain ⟨p, _, inside⟩ := List.mem_flatMap.mp parameter
    exact not_mem_annotationModules p.type inside
  · exact not_mem_annotationModules m.result result

theorem Interface.not_mem_modules (i : Interface) : "" ∉ i.modules := by
  intro member
  rcases List.mem_append.mp member with base | methods
  · exact not_mem_supertypeModules i.supertypes base
  · obtain ⟨m, _, own⟩ := List.mem_flatMap.mp methods
    exact m.not_mem_modules own

theorem Body.not_mem_modules (b : Body) : "" ∉ b.modules := by
  cases b with
  | direct => exact List.not_mem_nil
  | deferred => exact deferredWrapper.not_mem_modules
  | stream => exact streamWrapper.not_mem_modules

theorem Method.not_mem_wrapperModules (m : Method) : "" ∉ m.wrapperModules := by
  intro member
  rcases List.mem_append.mp member with named | called
  · rcases List.mem_append.mp named with shown | mark
    · exact m.not_mem_modules shown
    · split at mark
      · exact absurd (List.mem_singleton.mp mark) (by decide)
      · contradiction
  · cases present : m.body with
    | none => simp [present] at called
    | some b => exact b.not_mem_modules (by simpa [present] using called)

theorem Wrapper.not_mem_modules (w : Wrapper) : "" ∉ w.modules := by
  intro member
  rcases List.mem_append.mp member with front | methods
  · rcases List.mem_append.mp front with base | field
    · exact not_mem_supertypeModules w.supertypes base
    · exact w.delegate.type.not_mem_modules field
  · obtain ⟨m, _, own⟩ := List.mem_flatMap.mp methods
    exact m.not_mem_wrapperModules own

theorem not_mem_importedModules (target : Option String) (interfaces : List Interface)
    (wrappers : List Wrapper) : "" ∉ importedModules target interfaces wrappers := by
  rw [mem_importedModules]
  rintro ⟨typing | ⟨i, _, inside⟩ | ⟨w, _, inside⟩, _⟩
  · contradiction
  · exact i.not_mem_modules inside
  · exact w.not_mem_modules inside

/-- The imports of a module with wrappers of some classes stand in ascending order, once each, and are what
qualifies anything in its text, and the module of protocols. -/
theorem imports_exact {target : Option String} (untyped : target ≠ some "typing")
    (unmarked : target ≠ some "typing_extensions") {classes : List (ClassInfo × Context)}
    {wrappers : List Wrapper} (compiled : Compiled classes wrappers) (interfaces : List Interface)
    (scope : Option ScopeProvider) :
    ∃ pieces, modulePieces target interfaces wrappers scope = .ok pieces ∧
      moduleText target interfaces wrappers scope =
        .ok (Text.joinLines (pieces.map Piece.join) ++ "\n") ∧
      (importedModules target interfaces wrappers).Pairwise (· < ·) ∧
      (∀ module ∈ importedModules target interfaces wrappers, module ≠ "" ∧ some module ≠ target) ∧
      ∀ module, module ∈ importedModules target interfaces wrappers ↔
        module = "typing" ∨ Qualifies module pieces := by
  obtain ⟨source, text⟩ := exists_moduleLines compiled.bodied target interfaces scope
  obtain ⟨pieces, written, rfl⟩ := exists_of_map_ok (moduleLines_eq_join target interfaces wrappers scope ▸ text)
  refine ⟨pieces, written, by rw [moduleText, text]; rfl, sortedDistinct_ascending _, ?_, ?_⟩
  · intro module member
    refine ⟨?_, (mem_importedModules.mp member).2⟩
    rintro rfl
    exact not_mem_importedModules target interfaces wrappers member
  · intro module
    have each : ∀ w ∈ wrappers, ∀ block,
        w.linePieces target (Aliases.choose wrappers scope target) = .ok block →
          (Qualifies module block ↔ module ∈ w.modules ∧ some module ≠ target) := by
      intro w among block lines
      obtain ⟨_, _, ran⟩ := exists_related_left compiled w among
      exact (wrapsClass_of_compile ran).qualifies_linePieces unmarked lines
    rw [mem_importedModules, qualifies_modulePieces written each]
    constructor
    · rintro ⟨typing | ⟨i, listed, inside⟩ | ⟨w, among, inside⟩, foreign⟩
      · exact Or.inl typing
      · exact Or.inr (Or.inl ⟨i, listed, Or.inr ⟨inside, foreign⟩⟩)
      · exact Or.inr (Or.inr ⟨w, among, inside, foreign⟩)
    · rintro (rfl | ⟨i, listed, rfl | ⟨inside, foreign⟩⟩ | ⟨w, among, inside, foreign⟩)
      · exact ⟨Or.inl rfl, Ne.symm untyped⟩
      · exact ⟨Or.inl rfl, Ne.symm untyped⟩
      · exact ⟨Or.inr (Or.inl ⟨i, listed, inside⟩), foreign⟩
      · exact ⟨Or.inr (Or.inr ⟨w, among, inside⟩), foreign⟩

def readerWrapper : Wrapper :=
  { name := "ReaderWrapper"
    module := some "app.wrappers"
    supertypes := [readerInterface]
    methods := streamingReader.methods.map fun m =>
      m.adapted (some "scope") readerContext.interface delegateName
    delegate := { name := "wrapped", type := streamingReader.type }
    constructor :=
      { parameters := [{ name := "wrapped", type := some streamingReader.type }], assigns := ["wrapped"] }
    doc := some (wrapperDoc streamingReader.type) }

theorem reader_compiled : Compiled [(streamingReader, readerContext)] [readerWrapper] :=
  .cons rfl .nil

def derivedReader : Interface := (streamingReader.deriveInterface readerInterface).interface none

theorem reader_needs_rows :
    "app.rows" ∈ importedModules (some "app.wrappers") [derivedReader] [readerWrapper] :=
  mem_importedModules.mpr
    ⟨Or.inr (Or.inr ⟨readerWrapper, List.mem_singleton_self _, by decide⟩), by decide⟩

theorem reader_needs_no_iterator :
    "collections.abc" ∉ importedModules (some "app.wrappers") [derivedReader] [readerWrapper] := by
  rw [mem_importedModules]
  rintro ⟨typing | ⟨i, listed, inside⟩ | ⟨w, among, inside⟩, _⟩
  · contradiction
  · cases List.mem_singleton.mp listed
    revert inside
    decide
  · cases List.mem_singleton.mp among
    revert inside
    decide

/-- The asynchronous iterator of the class is replaced by a stream of its items, whose module is imported for
an argument of a result alone. -/
theorem reader_imports_exact :
    some "app.wrappers" ≠ some "typing" ∧ some "app.wrappers" ≠ some "typing_extensions" ∧
    Compiled [(streamingReader, readerContext)] [readerWrapper] ∧
    ∃ pieces, modulePieces (some "app.wrappers") [derivedReader] [readerWrapper] none = .ok pieces ∧
      Qualifies "app.rows" pieces ∧ ¬ Qualifies "collections.abc" pieces := by
  have untyped : some "app.wrappers" ≠ some "typing" := by decide
  have unmarked : some "app.wrappers" ≠ some "typing_extensions" := by decide
  obtain ⟨pieces, written, _, _, _, exactly⟩ :=
    imports_exact untyped unmarked reader_compiled [derivedReader] none
  have rows := ((exactly "app.rows").mp reader_needs_rows).resolve_left (by decide)
  have iterator : ¬ Qualifies "collections.abc" pieces :=
    fun shown => reader_needs_no_iterator ((exactly "collections.abc").mpr (Or.inr shown))
  exact ⟨untyped, unmarked, reader_compiled, pieces, written, rows, iterator⟩

end SyncFacade
