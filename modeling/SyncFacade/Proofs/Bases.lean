import SyncFacade.Workspace
import SyncFacade.Proofs.Compilation
import SyncFacade.Proofs.Registry.History
import SyncFacade.Proofs.Source.Imports
import SyncFacade.Proofs.Source.Statements

/-! The bases of generated classes. A base is a protocol, an interface that stands further up in the same
module, or a class of a module that is imported; and where that module is generated as well, the class is
found in it. This rests on where the types come from that a wrapper extends: either from outside of all
generated modules, or from what one of the targets shows. -/
namespace SyncFacade

/-- A module with a name that no target has. -/
def Outside (targets : List Target) (module : String) : Prop :=
  module ≠ "" ∧ ∀ t ∈ targets, t.module ≠ module

/-- How the text of a base leads to a type: to an interface of the same module that stands above, or through
an import to another module, which defines it if it is generated too. -/
inductive Resolves (layouts : OrderedMap String SourceLayout) (targets : List Target) (module : String)
    (imports : List String) (above : List ClassStatement) : TypeRef → String → Prop where
  | interface (s : ClassStatement) : s ∈ above → s.bases = ["typing.Protocol"] →
      Resolves layouts targets module imports above { name := s.name, module := some module } s.name
  | imported (origin name : String) : origin ∈ imports →
      (∀ t ∈ targets, t.module = origin →
        ∃ layout, layouts.find? origin = some layout ∧ ∃ s ∈ layout.statements, s.name = name) →
      Resolves layouts targets module imports above { name, module := some origin } (origin ++ "." ++ name)

namespace Registry

variable {κ : Type}

/-- The names of the interfaces of a target's module: the replacements that the target shows, and what its
classes ask for. -/
def interfaceNames (r : Registry κ) (module : String) : List String :=
  (r.interfacesOf module).keys ++ (r.wrappings module).filterMap (·.interface)

/-- What is written for an interface of a class: the interface itself, or a replacement that one of the
targets shows. -/
def Replaces (r : Registry κ) (targets : List Target) (declared written : TypeRef) : Prop :=
  written = declared ∨ ∃ t ∈ targets, ∃ name ∈ (r.interfacesOf t.module).keys,
    written = { name, module := some t.module }

/-- The statement of a wrapper. Its bases are read as the interfaces of the class in their order, and the
interface made with the wrapper. -/
structure Extends (r : Registry κ) (describe : κ → Logged GenerationError ClassInfo) (targets : List Target)
    (module : String) (reads : TypeRef → String → Prop) (w : Wrapping κ) (s : ClassStatement) : Prop where
  name : s.name = w.name
  bases : ∃ c written, (describe w.key).outcome = .ok c ∧
    List.Forall₂ (r.Replaces targets) c.supertypes written ∧
    List.Forall₂ reads (written ++ (w.interface.map fun name => { name, module := some module }).toList)
      s.bases

/-- The imports and the aliases of a module are those that what is made for its target needs. -/
def ImportsFor (r : Registry κ) (catalogue : Catalogue κ) (t : Target) (replacements : OrderedMap TypeRef TypeRef)
    (layout : SourceLayout) : Prop :=
  ∃ replaced compiled, r.Makes catalogue t replacements replaced compiled ∧
    layout.imports =
      importedModules (some t.module) (replaced ++ compiled.filterMap Prod.fst) (compiled.map Prod.snd) ∧
    layout.aliases = aliasImports (Aliases.choose (compiled.map Prod.snd) t.scope (some t.module))
      (bodiesOf (compiled.map Prod.snd)) (some t.module) t.scope

/-- The module of a target, which the given one of the targets stands for: its imports and aliases, all interfaces, and
then all wrappers. -/
structure LaidOut (r : Registry κ) (catalogue : Catalogue κ) (targets : List Target)
    (module : String) (layout : SourceLayout) (reads : TypeRef → String → Prop)
    (interfaces classes : List ClassStatement) : Prop where
  opened : ∃ t ∈ (Target.onePerModule targets).2, t.module = module ∧
    r.ImportsFor catalogue t (r.replacements catalogue.type (Target.onePerModule targets).2) layout
  statements : layout.statements = interfaces ++ classes
  typing : "typing" ∈ layout.imports
  named : interfaces.map ClassStatement.name = r.interfaceNames module
  protocols : ∀ s ∈ interfaces, s.bases = ["typing.Protocol"]
  wrappers : List.Forall₂ (r.Extends catalogue.describe targets module reads) (r.wrappings module) classes

/-- The text of a type in a module. Any other module that it needs is imported. -/
def Written (module : String) (imports : List String) (u : TypeRef) (base : String) : Prop :=
  base = u.render (some module) ∧ ∀ m, u.module = some m → m ≠ "" → m ≠ module → m ∈ imports

section Layout

variable {r : Registry κ} {catalogue : Catalogue κ} {t : Target} {replacements : OrderedMap TypeRef TypeRef}
  {replaced : List Interface} {compiled : List (Option Interface × Wrapper)}
  (makes : r.Makes catalogue t replacements replaced compiled)
include makes

theorem map_name_interfaces :
    (replaced ++ compiled.filterMap Prod.fst).map Interface.name = r.interfaceNames t.module := by
  have front : replaced.map Interface.name = (r.interfacesOf t.module).keys := by
    refine map_eq_map_of_related (makes.interfaces.flip.imp fun i e made => ?_)
    obtain ⟨c, _, rfl⟩ := Target.compileInterface_ok made
    rfl
  have asked : compiled.map (fun c => c.1.map Interface.name) =
      (r.wrappings t.module).map (·.interface) := by
    refine map_eq_map_of_related (makes.classes.flip.imp fun c w made => ?_)
    obtain ⟨_, _, _, _, interface, _⟩ := Target.compileClass_ok made
    rw [interface, Option.map_map]
    exact congrFun Option.map_id w.interface
  have back := congrArg (List.filterMap id) asked
  rw [List.filterMap_map, List.filterMap_map] at back
  rw [List.map_append, front, List.map_filterMap]
  exact congrArg _ back

theorem supertypes_interfaces : ∀ i ∈ replaced ++ compiled.filterMap Prod.fst, i.supertypes = [] := by
  intro i member
  rcases List.mem_append.mp member with front | back
  · obtain ⟨e, _, made⟩ := exists_related_left makes.interfaces i front
    obtain ⟨c, _, rfl⟩ := Target.compileInterface_ok made
    rfl
  · obtain ⟨c, among, present⟩ := List.mem_filterMap.mp back
    obtain ⟨w, _, made⟩ := exists_related_left makes.classes c among
    obtain ⟨_, _, _, _, interface, _⟩ := Target.compileClass_ok made
    rw [interface] at present
    obtain ⟨name, _, rfl⟩ := Option.map_eq_some_iff.mp present
    rfl

end Layout

theorem replaces_wrapperSupertypes {r : Registry κ} {type : κ → TypeRef} {targets : List Target}
    {c : ClassInfo} {substitution : Option Substitution}
    (chosen : (c.chooseSubstitution (r.replacements type (Target.onePerModule targets).2)).outcome =
      .ok substitution)
    (binding : Option InterfaceBinding) :
    ∃ written, List.Forall₂ (r.Replaces targets) c.supertypes written ∧
      wrapperSupertypes c.supertypes substitution binding =
        written ++ (binding.map InterfaceBinding.type).toList := by
  refine ⟨_, ?_, rfl⟩
  rw [List.forall₂_map_right_iff, List.forall₂_same]
  intro d _
  cases substitution with
  | none => exact Or.inl rfl
  | some s =>
    by_cases same : d = s.replaced
    · simp only [if_pos same]
      obtain ⟨t, used, replacement⟩ := replacements_find? (ClassInfo.chooseSubstitution_ok chosen).2
      exact Or.inr ⟨t, (Target.onePerModule_spec targets).1 t used, replacement⟩
    · simp only [if_neg same]
      exact Or.inl rfl

theorem extends_of_compileClass {r : Registry κ} {catalogue : Catalogue κ} {targets : List Target}
    {t : Target} {w : Wrapping κ} {made : Option Interface × Wrapper} {s : ClassStatement}
    {imports : List String}
    (compiled : (t.compileClass catalogue.describe
      (r.replacements catalogue.type (Target.onePerModule targets).2) w).outcome = .ok made)
    (header : made.2.WrittenAs (some t.module) s)
    (imported : ∀ m ∈ made.2.modules, m ≠ t.module → m ∈ imports) :
    r.Extends catalogue.describe targets t.module (Written t.module imports) w s := by
  obtain ⟨name, bases⟩ := header
  obtain ⟨c, substitution, described, chosen, _, wraps⟩ := Target.compileClass_ok compiled
  obtain ⟨written, replaces, supertypes⟩ := replaces_wrapperSupertypes chosen
    (w.interface.map fun name => c.deriveInterface { name, module := some t.module })
  have types : made.2.supertypes = written ++
      (w.interface.map fun name => { name, module := some t.module : TypeRef }).toList := by
    rw [wraps.supertypes, supertypes, Option.map_map]
    rfl
  refine ⟨name.trans wraps.name, c, written, described, replaces, ?_⟩
  rw [bases, ← types, List.forall₂_map_right_iff, List.forall₂_same]
  -- Whatever stands in a header is among the supertypes from which the imports are collected.
  refine fun u extended => ⟨rfl, fun m defined named foreign => imported m ?_ foreign⟩
  have mentioned : m ∈ made.2.supertypes.flatMap TypeRef.modules :=
    List.mem_flatMap.mpr ⟨u, extended, TypeRef.mem_modules defined named⟩
  exact List.mem_append_left _ (List.mem_append_left _ mentioned)

theorem exists_laidOut {r : Registry κ} {catalogue : Catalogue κ} {targets : List Target} {t : Target}
    (chosen : t ∈ (Target.onePerModule targets).2) (untyped : t.module ≠ "typing") {text : String}
    (made : (r.compile catalogue t (some
      (r.replacements catalogue.type (Target.onePerModule targets).2))).outcome = .ok text) :
    ∃ (layout : SourceLayout) (interfaces classes : List ClassStatement), text = layout.text ∧
      r.LaidOut catalogue targets t.module layout (Written t.module layout.imports)
        interfaces classes := by
  obtain ⟨replaced, compiled, makes, written⟩ := compile_ok made
  obtain ⟨layout, statements, text, imports, aliases, split, writtenAs⟩ := exists_layout written
  have imported : ∀ m, (m = "typing" ∨ ∃ w ∈ compiled.map Prod.snd, m ∈ w.modules) → m ≠ t.module →
      m ∈ layout.imports := by
    intro m mentioned foreign
    rw [imports, mem_importedModules]
    exact ⟨mentioned.imp id Or.inr, fun same => foreign (Option.some.inj same)⟩
  refine ⟨layout, _, statements, text, ⟨t, chosen, rfl, replaced, compiled, makes, imports, aliases⟩, split,
    imported _ (Or.inl rfl) (Ne.symm untyped), ?_, ?_, ?_⟩
  · rw [List.map_map]
    exact map_name_interfaces makes
  · intro s member
    obtain ⟨i, listed, rfl⟩ := List.mem_map.mp member
    rw [Interface.statement, supertypes_interfaces makes i listed]
    rfl
  · refine related_trans (fun w c among s result header => ?_) makes.classes
      (List.forall₂_map_left_iff.mp writtenAs)
    exact extends_of_compileClass result header fun m mentioned =>
      imported m (Or.inr ⟨c.2, List.mem_map_of_mem among, mentioned⟩)

/-- The generated modules, one for each module of the targets. -/
structure Generated (r : Registry κ) (catalogue : Catalogue κ)
    (targets : List Target) (layouts : OrderedMap String SourceLayout) : Prop where
  distinct : layouts.keys.Nodup
  modules : ∀ module, module ∈ layouts.keys ↔ ∃ t ∈ targets, t.module = module
  each : ∀ module layout, (module, layout) ∈ layouts.entries → ∃ interfaces classes,
    r.LaidOut catalogue targets module layout (Written module layout.imports) interfaces classes

theorem exists_generated {r : Registry κ} {catalogue : Catalogue κ} {targets : List Target}
    (untyped : ∀ t ∈ targets, t.module ≠ "typing") {sources : OrderedMap String String}
    (done : (r.compileAll catalogue targets).outcome = .ok sources) :
    ∃ layouts : OrderedMap String SourceLayout,
      sources.entries = layouts.entries.map (fun e => (e.1, e.2.text)) ∧
      r.Generated catalogue targets layouts := by
  obtain ⟨given, distinct, covered⟩ := Target.onePerModule_spec targets
  have read : ∃ layouts : List (String × SourceLayout),
      List.Forall₂ (fun e l => id e = (l.1, l.2.text)) sources.entries layouts ∧
      List.Forall₂ (fun t l => t.module = l.1 ∧ ∃ interfaces classes,
        r.LaidOut catalogue targets l.1 l.2 (Written l.1 l.2.imports) interfaces classes)
        (Target.onePerModule targets).2 layouts := by
    refine exists_third (compileAll_ok done) fun t chosen e compiled => ?_
    obtain ⟨named, made⟩ := compiled
    obtain ⟨layout, interfaces, classes, text, laid⟩ := exists_laidOut chosen (untyped t (given t chosen)) made
    exact ⟨(t.module, layout), Prod.ext named text, rfl, interfaces, classes, laid⟩
  -- No text replaces another one, because the chosen targets have different modules.
  obtain ⟨layouts, texts, laidOut⟩ := read
  have modules : (Target.onePerModule targets).2.map Target.module = layouts.map Prod.fst :=
    map_eq_map_of_related (laidOut.imp fun _ _ both => both.1)
  rw [modules] at distinct covered
  have same := map_eq_map_of_related texts
  rw [List.map_id] at same
  refine ⟨⟨layouts⟩, same, distinct, fun module => ⟨fun listed => ?_, ?_⟩, fun module layout member => ?_⟩
  · rw [OrderedMap.keys, ← modules] at listed
    obtain ⟨t, chosen, named⟩ := List.mem_map.mp listed
    exact ⟨t, given t chosen, named⟩
  · rintro ⟨t, among, rfl⟩
    exact covered t among
  · obtain ⟨t, _, _, laid⟩ := exists_related_left laidOut (module, layout) member
    exact laid

section Resolution

variable {r : Registry κ} {catalogue : Catalogue κ} {describe : κ → Logged GenerationError ClassInfo}
  {targets : List Target}

/-- The types that the classes of a registry extend lie outside of the targets. -/
def ExtendsOutside (r : Registry κ) (describe : κ → Logged GenerationError ClassInfo)
    (targets : List Target) : Prop :=
  ∀ key e, (key, e) ∈ r.classes.entries → ∀ c, (describe key).outcome = .ok c →
    ∀ u ∈ c.supertypes, ∃ module, u = { name := u.name, module := some module } ∧ Outside targets module

/-- A type that a wrapper may extend. -/
inductive Base (r : Registry κ) (targets : List Target) : TypeRef → Prop where
  | outside (name module : String) : Outside targets module →
      Base r targets { name, module := some module }
  | generated (t : Target) (name : String) : t ∈ targets → name ∈ r.interfaceNames t.module →
      Base r targets { name, module := some t.module }

theorem exists_entry_of_wrapping {module : String} {w : Wrapping κ} (member : w ∈ r.wrappings module) :
    ∃ e, (w.key, e) ∈ r.classes.entries := by
  obtain ⟨⟨name, key, interface⟩, shown, rfl⟩ := List.mem_map.mp member
  exact ⟨_, mem_classes_of_shown ((OrderedMap.mem_entries_iff (OrderedMap.nodup_keys_ofList _)).mp shown)⟩

theorem base_of_extends (outside : r.ExtendsOutside describe targets) {t : Target} (among : t ∈ targets)
    {w : Wrapping κ} (shown : w ∈ r.wrappings t.module) {c : ClassInfo}
    (described : (describe w.key).outcome = .ok c) {written : List TypeRef}
    (replaces : List.Forall₂ (r.Replaces targets) c.supertypes written) :
    ∀ u ∈ written ++ (w.interface.map fun name => { name, module := some t.module : TypeRef }).toList,
      r.Base targets u := by
  obtain ⟨e, registered⟩ := exists_entry_of_wrapping shown
  intro u member
  rcases List.mem_append.mp member with kept | own
  · obtain ⟨d, listed, same | ⟨other, there, name, shownThere, same⟩⟩ :=
      exists_related_left replaces u kept
    · obtain ⟨module, plain, elsewhere⟩ := outside w.key e registered c described d listed
      rw [same, plain]
      exact .outside d.name module elsewhere
    · rw [same]
      exact .generated other name there (List.mem_append_left _ shownThere)
  · obtain ⟨name, asked, rfl⟩ := Option.map_eq_some_iff.mp (Option.mem_toList.mp own)
    exact .generated t name among (List.mem_append_right _ (List.mem_filterMap.mpr ⟨w, shown, asked⟩))

variable {module : String} {layout : SourceLayout} {reads : TypeRef → String → Prop}
  {interfaces classes : List ClassStatement}

theorem LaidOut.exists_interface (laid : r.LaidOut catalogue targets module layout reads interfaces classes)
    {name : String} (shown : name ∈ r.interfaceNames module) :
    ∃ s ∈ interfaces, s.name = name ∧ s.bases = ["typing.Protocol"] := by
  rw [← laid.named] at shown
  obtain ⟨s, member, rfl⟩ := List.mem_map.mp shown
  exact ⟨s, member, rfl, laid.protocols s member⟩

theorem resolves_of_base {layouts : OrderedMap String SourceLayout}
    (generated : r.Generated catalogue targets layouts) (named : ∀ t ∈ targets, t.module ≠ "")
    {t : Target} (among : t ∈ targets)
    (laid : r.LaidOut catalogue targets t.module layout reads interfaces classes)
    {u : TypeRef} (origin : r.Base targets u) {base : String}
    (written : Written t.module layout.imports u base) :
    Resolves layouts targets t.module layout.imports interfaces u base := by
  obtain ⟨rfl, imported⟩ := written
  cases origin with
  | outside name m elsewhere =>
    obtain ⟨shown, apart⟩ := elsewhere
    have foreign : m ≠ t.module := Ne.symm (apart t among)
    rw [TypeRef.render_foreign shown (by simpa using foreign)]
    exact .imported m name (imported m rfl shown foreign) fun t member same =>
      absurd same (apart t member)
  | generated other name there shown =>
    by_cases home : other.module = t.module
    · rw [home] at shown ⊢
      obtain ⟨i, first, rfl, protocol⟩ := laid.exists_interface shown
      rw [TypeRef.render_own]
      exact .interface i first protocol
    · -- The module of the other target is generated as well, with all interfaces that it shows.
      rw [TypeRef.render_foreign (named other there) (by simpa using home)]
      refine .imported other.module name (imported _ rfl (named other there) home) fun _ _ _ => ?_
      have listed := (generated.modules other.module).mpr ⟨other, there, rfl⟩
      obtain ⟨⟨_, theirs⟩, entry, rfl⟩ := List.mem_map.mp listed
      obtain ⟨_, _, laidThere⟩ := generated.each _ theirs entry
      obtain ⟨i, first, rfl, _⟩ := laidThere.exists_interface shown
      refine ⟨theirs, (OrderedMap.mem_entries_iff generated.distinct).mp entry, i, ?_, rfl⟩
      rw [laidThere.statements]
      exact List.mem_append_left _ first

theorem LaidOut.resolves {layouts : OrderedMap String SourceLayout}
    (generated : r.Generated catalogue targets layouts) (named : ∀ t ∈ targets, t.module ≠ "")
    (outside : r.ExtendsOutside catalogue.describe targets) {t : Target} (among : t ∈ targets)
    (laid : r.LaidOut catalogue targets t.module layout (Written t.module layout.imports)
      interfaces classes) :
    r.LaidOut catalogue targets t.module layout
      (Resolves layouts targets t.module layout.imports interfaces) interfaces classes where
  opened := laid.opened
  statements := laid.statements
  typing := laid.typing
  named := laid.named
  protocols := laid.protocols
  wrappers := by
    refine related_imp (fun w shown s _ statement => ?_) laid.wrappers
    obtain ⟨name, c, written, described, replaces, bases⟩ := statement
    refine ⟨name, c, written, described, replaces, related_imp (fun u listed base _ reads => ?_) bases⟩
    exact resolves_of_base generated named among laid
      (base_of_extends outside among shown described replaces u listed) reads

end Resolution

end Registry

namespace ClassTable

theorem describe_ok {t : ClassTable} {names : DeclaredClass → Function → Names} {number : Nat}
    {c : ClassInfo} (described : (t.describe names number).outcome = .ok c) :
    ∃ d, t.find? number = some d ∧ c.type = { name := d.name, module := some d.module } ∧
      c.supertypes = (d.bases.filter t.isInterface).map t.type := by
  cases found : t.find? number with
  | none =>
    simp only [describe, found] at described
    contradiction
  | some d =>
    simp only [describe, found] at described
    obtain ⟨methods, _, made⟩ := Logged.exists_of_bind_ok described
    cases made
    exact ⟨d, rfl, rfl, rfl⟩

theorem type_arguments (t : ClassTable) (c : ClassRef) : (t.type c).arguments = [] := by
  cases c with
  | base b => rfl
  | declared n => cases found : t.find? n <;> simp only [type, found] <;> rfl

end ClassTable

namespace Workspace

/-- The interfaces that registered classes extend are defined outside of the targets. -/
def InterfacesOutside (w : Workspace) (targets : List Target) : Prop :=
  ∀ key e, (key, e) ∈ w.registry.classes.entries → ∀ c, w.classes.find? key = some c →
    ∀ b ∈ c.bases, w.classes.isInterface b = true →
      ∃ module, (w.classes.type b).module = some module ∧ Outside targets module

theorem InterfacesOutside.extends {w : Workspace} {targets : List Target}
    (outside : w.InterfacesOutside targets) :
    w.registry.ExtendsOutside w.catalogue.describe targets := by
  intro key e registered c described u member
  obtain ⟨d, found, -, supertypes⟩ := ClassTable.describe_ok described
  rw [supertypes] at member
  obtain ⟨b, extended, rfl⟩ := List.mem_map.mp member
  obtain ⟨listed, interface⟩ := List.mem_filter.mp extended
  obtain ⟨module, defined, elsewhere⟩ := outside key e registered d found b listed interface
  refine ⟨module, ?_, elsewhere⟩
  have plain := w.reachableClasses.type_arguments b
  generalize same : w.reachableClasses.type b = u at plain
  have inModule : u.module = some module := same ▸ defined
  obtain ⟨name, _, _⟩ := u
  cases inModule
  cases plain
  rfl

/-- Every base of the generated modules resolves, if no target is called like the module of protocols and the
interfaces that classes extend lie outside of the targets. -/
theorem bases_resolve (w : Workspace) {targets : List Target} {sources : OrderedMap String String}
    (generated : (w.registry.compileAll w.catalogue targets).outcome = .ok sources)
    (named : ∀ t ∈ targets, t.module ≠ "") (untyped : ∀ t ∈ targets, t.module ≠ "typing")
    (outside : w.InterfacesOutside targets) :
    ∃ layouts : OrderedMap String SourceLayout,
      sources.entries = layouts.entries.map (fun e => (e.1, e.2.text)) ∧
      (∀ module, module ∈ layouts.keys ↔ ∃ t ∈ targets, t.module = module) ∧
      ∀ module layout, (module, layout) ∈ layouts.entries → ∃ interfaces classes,
        w.registry.LaidOut w.catalogue targets module layout
          (Resolves layouts targets module layout.imports interfaces) interfaces classes := by
  obtain ⟨layouts, texts, modules⟩ := Registry.exists_generated untyped generated
  refine ⟨layouts, texts, modules.modules, fun module layout entry => ?_⟩
  obtain ⟨interfaces, classes, laid⟩ := modules.each module layout entry
  obtain ⟨t, among, rfl⟩ := (modules.modules module).mp (List.mem_map_of_mem entry)
  exact ⟨interfaces, classes, laid.resolves modules named outside.extends among⟩

/-- A protocol and a class that extends it, registered for two targets. -/
def storeWorkspace : Workspace where
  classes := (({} : ClassTable).introduce
      { name := "Source", module := "app.ports", qualifiedName := "Source", bases := [.base .protocol] }).introduce
      { name := "Store", module := "app.store", qualifiedName := "Store", bases := [.declared 0] }
  registry := (({} : Registry Nat).wrapInterface "app.facades" 0 "Source" none).wrapClass "app.wrappers" 1
    "Store" none (some "StoreInterface")

def storeTargets : List Target := [{ module := "app.wrappers" }, { module := "app.facades" }]

theorem store_generated :
    ∃ sources, (storeWorkspace.registry.compileAll storeWorkspace.catalogue storeTargets).outcome =
      .ok sources :=
  Registry.exists_compileAll_iff.mpr (by decide +kernel)

theorem store_outside : storeWorkspace.InterfacesOutside storeTargets := by
  intro key e registered c found b extended _
  cases List.mem_singleton.mp registered
  cases found
  cases List.mem_singleton.mp extended
  exact ⟨"app.ports", rfl, by decide, by decide⟩

/-- The wrapper in one module extends the replacement in the other one, and the interface before it. -/
theorem store_bases_resolve :
    (∀ t ∈ storeTargets, t.module ≠ "") ∧ (∀ t ∈ storeTargets, t.module ≠ "typing") ∧
    storeWorkspace.InterfacesOutside storeTargets ∧
    ∃ sources, (storeWorkspace.registry.compileAll storeWorkspace.catalogue storeTargets).outcome =
        .ok sources ∧
      ∃ layouts : OrderedMap String SourceLayout,
        sources.entries = layouts.entries.map (fun e => (e.1, e.2.text)) ∧
        "app.wrappers" ∈ layouts.keys ∧
        ∀ module layout, (module, layout) ∈ layouts.entries → ∃ interfaces classes,
          storeWorkspace.registry.LaidOut storeWorkspace.catalogue storeTargets module layout
            (Resolves layouts storeTargets module layout.imports interfaces) interfaces classes := by
  obtain ⟨sources, generated⟩ := store_generated
  have named : ∀ t ∈ storeTargets, t.module ≠ "" := by decide
  have untyped : ∀ t ∈ storeTargets, t.module ≠ "typing" := by decide
  obtain ⟨layouts, texts, modules, each⟩ :=
    bases_resolve storeWorkspace generated named untyped store_outside
  have present : "app.wrappers" ∈ layouts.keys := (modules _).mpr ⟨_, List.mem_cons_self, rfl⟩
  exact ⟨named, untyped, store_outside, sources, generated, layouts, texts, present, each⟩

end Workspace
end SyncFacade
