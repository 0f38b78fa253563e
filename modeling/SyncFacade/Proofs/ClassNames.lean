import SyncFacade.Proofs.Bases

/-! The names of the classes in a generated module. They come from three places: the protocols that a target
shows, the interfaces that its classes ask for, and its wrappers. Protocols have different names, and so have
wrappers, since each of the two is kept by name. Nothing keeps the names of one place from those of another, or
one class from asking for the interface of another. -/
namespace SyncFacade

namespace Registry

variable {κ : Type}

def askedInterfaces (r : Registry κ) (module : String) : List String :=
  (r.wrappings module).filterMap (·.interface)

/-- The names of all classes that are generated for a target, in the order in which they are written. -/
def classNames (r : Registry κ) (module : String) : List String :=
  r.interfaceNames module ++ (r.classesOf module).keys

theorem map_name_wrappings (r : Registry κ) (module : String) :
    (r.wrappings module).map Wrapping.name = (r.classesOf module).keys := by
  rw [wrappings, List.map_map]
  rfl

/-- The text of a target's module has the imports and aliases that it needs, and one class statement for each of its
names. -/
theorem exists_layout_named {r : Registry κ} {catalogue : Catalogue κ} {t : Target}
    {replacements : Option (OrderedMap TypeRef TypeRef)} {text : String}
    (made : (r.compile catalogue t replacements).outcome = .ok text) :
    ∃ layout : SourceLayout, text = layout.text ∧
      r.ImportsFor catalogue t (replacements.getD (r.replacements catalogue.type [t])) layout ∧
      layout.statements.map ClassStatement.name = r.classNames t.module := by
  have given : (r.compile catalogue t (some (replacements.getD
      (r.replacements catalogue.type [t])))).outcome = .ok text := made
  obtain ⟨replaced, compiled, makes, written⟩ := compile_ok given
  obtain ⟨layout, statements, same, imports, aliases, split, headers⟩ := exists_layout written
  have front : (replaced ++ compiled.filterMap Prod.fst).map Interface.name = r.interfaceNames t.module :=
    map_name_interfaces makes
  have back : statements.map ClassStatement.name = (r.classesOf t.module).keys := by
    rw [← map_name_wrappings]
    refine map_eq_map_of_related (related_trans (fun w c _ s result header => ?_) makes.classes
      (List.forall₂_map_left_iff.mp headers)).flip
    obtain ⟨_, _, _, _, _, wraps⟩ := Target.compileClass_ok result
    exact header.1.trans wraps.name
  refine ⟨layout, same, ⟨replaced, compiled, makes, imports, aliases⟩, ?_⟩
  rw [split, List.map_append, back, List.map_map, classNames, ← front]
  rfl

/-- No name is taken twice by the classes of a target. -/
structure NamesApart (r : Registry κ) (module : String) : Prop where
  asked : (r.askedInterfaces module).Nodup
  askedNew : ∀ name ∈ r.askedInterfaces module,
    name ∉ (r.interfacesOf module).keys ∧ name ∉ (r.classesOf module).keys
  wrappersNew : ∀ name ∈ (r.classesOf module).keys, name ∉ (r.interfacesOf module).keys

theorem nodup_classNames_iff {r : Registry κ} {module : String} :
    (r.classNames module).Nodup ↔ r.NamesApart module := by
  have protocols : (r.interfacesOf module).keys.Nodup := OrderedMap.nodup_keys_ofList _
  have wrappers : (r.classesOf module).keys.Nodup := OrderedMap.nodup_keys_ofList _
  simp only [classNames, interfaceNames, List.nodup_append, protocols, wrappers, true_and, List.mem_append]
  constructor
  · rintro ⟨⟨asked, across⟩, before⟩
    exact {
      asked
      askedNew := fun name member =>
        ⟨fun shown => across name shown name member rfl, fun wraps => before name (Or.inr member) name wraps rfl⟩
      wrappersNew := fun name wraps shown => before name (Or.inl shown) name wraps rfl }
  · intro apart
    refine ⟨⟨apart.asked, ?_⟩, ?_⟩
    · rintro name shown _ member rfl
      exact (apart.askedNew name member).1 shown
    · rintro name (shown | member) _ wraps rfl
      · exact apart.wrappersNew name wraps shown
      · exact (apart.askedNew name member).2 wraps

/-- No class of a generated module redefines another one, exactly if the names of its target are apart. -/
theorem class_names_distinct_iff (r : Registry κ) (catalogue : Catalogue κ) (t : Target)
    (replacements : Option (OrderedMap TypeRef TypeRef)) {text : String}
    (made : (r.compile catalogue t replacements).outcome = .ok text) :
    ∃ layout : SourceLayout, text = layout.text ∧
      r.ImportsFor catalogue t (replacements.getD (r.replacements catalogue.type [t])) layout ∧
      layout.statements.map ClassStatement.name = r.classNames t.module ∧
      ((layout.statements.map ClassStatement.name).Nodup ↔ r.NamesApart t.module) := by
  obtain ⟨layout, same, opened, names⟩ := exists_layout_named made
  refine ⟨layout, same, opened, names, ?_⟩
  rw [names]
  exact nodup_classNames_iff

end Registry

namespace Workspace

theorem store_compiled : ∃ text,
    (storeWorkspace.registry.compile storeWorkspace.catalogue { module := "app.wrappers" }).outcome = .ok text :=
  Registry.exists_compile_iff.mpr (by decide +kernel)

theorem store_names_apart :
    ∃ text, (storeWorkspace.registry.compile storeWorkspace.catalogue { module := "app.wrappers" }).outcome =
        .ok text ∧
      ∃ layout : SourceLayout, text = layout.text ∧
        storeWorkspace.registry.ImportsFor storeWorkspace.catalogue { module := "app.wrappers" }
          (storeWorkspace.registry.replacements storeWorkspace.catalogue.type [{ module := "app.wrappers" }]) layout ∧
        layout.statements.map ClassStatement.name = ["StoreInterface", "StoreWrapper"] ∧
        (layout.statements.map ClassStatement.name).Nodup := by
  have apart : storeWorkspace.registry.NamesApart "app.wrappers" := ⟨by decide, by decide, by decide⟩
  obtain ⟨text, made⟩ := store_compiled
  obtain ⟨layout, same, opened, names, distinct⟩ := storeWorkspace.registry.class_names_distinct_iff _ _ none made
  exact ⟨text, made, layout, same, opened, names, distinct.mpr apart⟩

/-- A class and a protocol of one name, both registered without a name for what is generated. -/
def namesakesWorkspace : Workspace where
  classes := (({} : ClassTable).introduce
      { name := "Store", module := "app.ports", qualifiedName := "Store", bases := [.base .protocol] }).introduce
      { name := "Store", module := "app.store", qualifiedName := "Store" }
  registry := Registry.registerAll {}
    [.wrapClass "app.wrappers" 1 "Store" none none, .wrapInterface "app.wrappers" 0 "Store" none]

theorem namesakes_compiled : ∃ text, (namesakesWorkspace.registry.compile namesakesWorkspace.catalogue
    { module := "app.wrappers" }).outcome = .ok text :=
  Registry.exists_compile_iff.mpr (by decide +kernel)

theorem namesakes_redefined :
    ∃ text, (namesakesWorkspace.registry.compile namesakesWorkspace.catalogue
        { module := "app.wrappers" }).outcome = .ok text ∧
      ∃ layout : SourceLayout, text = layout.text ∧
        namesakesWorkspace.registry.ImportsFor namesakesWorkspace.catalogue { module := "app.wrappers" }
          (namesakesWorkspace.registry.replacements namesakesWorkspace.catalogue.type [{ module := "app.wrappers" }])
          layout ∧
        layout.statements.map ClassStatement.name = ["StoreWrapper", "StoreWrapper"] ∧
        ¬ (layout.statements.map ClassStatement.name).Nodup := by
  obtain ⟨text, made⟩ := namesakes_compiled
  obtain ⟨layout, same, opened, names⟩ := Registry.exists_layout_named made
  have both : namesakesWorkspace.registry.classNames "app.wrappers" = ["StoreWrapper", "StoreWrapper"] := by
    decide +kernel
  rw [both] at names
  refine ⟨text, made, layout, same, opened, names, ?_⟩
  rw [names]
  decide

end Workspace
end SyncFacade
