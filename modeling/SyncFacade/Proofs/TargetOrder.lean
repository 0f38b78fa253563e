import SyncFacade.Proofs.Bases

/-! The order in which targets are given. It decides which of several targets stands for their module, and which
replacement a protocol has that is registered twice. Where targets of one module agree on their scope, and
targets of different modules register different protocols, nothing that is written depends on it. -/
namespace SyncFacade

namespace Target

/-- Targets of one module that have a scope have the same one. -/
def ScopesAgree (targets : List Target) : Prop :=
  ∀ t ∈ targets, ∀ u ∈ targets, t.module = u.module → t.scope ≠ none → u.scope ≠ none → t.scope = u.scope

/-- What stands for a module, without regard to the order. -/
theorem mem_onePerModule_iff_of_agree {targets : List Target} (agree : ScopesAgree targets) {t : Target} :
    t ∈ (onePerModule targets).2 ↔
      t ∈ targets ∧ (t.scope = none → ∀ u ∈ targets, u.module = t.module → u.scope = none) := by
  rw [mem_onePerModule_iff]
  constructor
  · intro stands
    refine ⟨(mem_of_standing stands).1, fun empty u member same => ?_⟩
    by_contra has
    obtain ⟨used, stood, usable⟩ := standing_of_mem member has
    rw [same, stands] at stood
    cases stood
    exact usable empty
  · rintro ⟨member, alone⟩
    obtain ⟨used, stands⟩ := exists_standing member
    obtain ⟨among, named⟩ := mem_of_standing stands
    have scopes : used.scope = t.scope := by
      by_cases empty : t.scope = none
      · rw [empty]
        exact alone empty used among named
      · obtain ⟨other, stood, has⟩ := standing_of_mem member empty
        rw [stands] at stood
        cases stood
        exact agree used among t member named has empty
    have same : used = t := by
      cases used
      cases t
      simp only at named scopes
      rw [named, scopes]
    rw [stands, same]

theorem onePerModule_nodup (targets : List Target) : (onePerModule targets).2.Nodup :=
  List.Nodup.of_map Target.module (onePerModule_spec targets).2.1

theorem onePerModule_perm {first second : List Target} (agree : ScopesAgree first)
    (perm : first.Perm second) : (onePerModule first).2.Perm (onePerModule second).2 := by
  have agreeToo : ScopesAgree second := fun t member u among =>
    agree t (perm.mem_iff.mpr member) u (perm.mem_iff.mpr among)
  refine (List.perm_ext_iff_of_nodup (onePerModule_nodup _) (onePerModule_nodup _)).mpr fun t => ?_
  rw [mem_onePerModule_iff_of_agree agree, mem_onePerModule_iff_of_agree agreeToo, perm.mem_iff]
  simp only [perm.mem_iff]

end Target

theorem ClassInfo.chooseSubstitution_congr (c : ClassInfo) {a b : OrderedMap TypeRef TypeRef}
    (same : ∀ t, a.find? t = b.find? t) : c.chooseSubstitution a = c.chooseSubstitution b := by
  have contained : a.contains = b.contains := by
    funext t
    rw [Bool.eq_iff_iff, OrderedMap.contains_iff, OrderedMap.contains_iff, ← not_iff_not,
      ← OrderedMap.find?_eq_none_iff, ← OrderedMap.find?_eq_none_iff, same]
  have candidates : c.replaceable a = c.replaceable b := by rw [replaceable, contained, replaceable]
  simp only [chooseSubstitution, candidates, same]

namespace Registry

variable {κ : Type}

/-- Protocols that are registered for different modules are different types. -/
def ProtocolsApart (r : Registry κ) (type : κ → TypeRef) : Prop :=
  ∀ e ∈ r.interfaces.entries, ∀ f ∈ r.interfaces.entries,
    e.2.target ≠ f.2.target → type e.1 ≠ type f.1

theorem compile_congr (r : Registry κ) (catalogue : Catalogue κ) (t : Target)
    {a b : OrderedMap TypeRef TypeRef} (same : ∀ u, a.find? u = b.find? u) :
    r.compile catalogue t (some a) = r.compile catalogue t (some b) := by
  have classes : t.compileClass catalogue.describe a = t.compileClass catalogue.describe b := by
    funext w
    simp only [Target.compileClass, ClassInfo.chooseSubstitution_congr _ same]
  simp only [compile, Target.compileItems, Option.getD_some, classes]

theorem replacements_perm {r : Registry κ} {type : κ → TypeRef} (apart : r.ProtocolsApart type)
    {first second : List Target} (distinct : (first.map Target.module).Nodup) (perm : first.Perm second)
    (u : TypeRef) : (r.replacements type first).find? u = (r.replacements type second).find? u := by
  refine OrderedMap.find?_ofList_flatMap_perm _ perm ?_ u
  refine (List.pairwise_map.mp distinct).imp fun {t other} modules k here there => ?_
  have registered : ∀ t : Target, k ∈ ((r.interfacesOf t.module).entries.map fun e =>
        (type e.2, ({ name := e.1, module := some t.module } : TypeRef))).map Prod.fst →
      ∃ e ∈ r.interfaces.entries, e.2.target = t.module ∧ type e.1 = k := by
    intro t member
    obtain ⟨_, shown, rfl⟩ := List.mem_map.mp member
    obtain ⟨⟨name, key⟩, entry, rfl⟩ := List.mem_map.mp shown
    have found := (OrderedMap.mem_entries_iff (OrderedMap.nodup_keys_ofList _)).mp entry
    exact ⟨_, mem_interfaces_of_shown found, rfl, rfl⟩
  obtain ⟨e, listed, target, rfl⟩ := registered t here
  obtain ⟨f, listedToo, targetToo, same⟩ := registered other there
  have different : e.2.target ≠ f.2.target := by rwa [target, targetToo]
  exact apart e listed f listedToo different same.symm

theorem keys_compileAll {r : Registry κ} {catalogue : Catalogue κ} {targets : List Target}
    {sources : OrderedMap String String} (done : (r.compileAll catalogue targets).outcome = .ok sources) :
    sources.keys = (Target.onePerModule targets).2.map Target.module :=
  map_eq_map_of_related ((compileAll_ok done).flip.imp fun _ _ both => both.1)

theorem find?_compileAll_iff {r : Registry κ} {catalogue : Catalogue κ} {targets : List Target}
    {sources : OrderedMap String String} (done : (r.compileAll catalogue targets).outcome = .ok sources)
    {module text : String} :
    sources.find? module = some text ↔ ∃ t ∈ (Target.onePerModule targets).2, t.module = module ∧
      (r.compile catalogue t (some (r.replacements catalogue.type (Target.onePerModule targets).2))).outcome =
        .ok text := by
  have made := compileAll_ok done
  have distinct : sources.keys.Nodup := by
    rw [keys_compileAll done]
    exact (Target.onePerModule_spec targets).2.1
  rw [← OrderedMap.mem_entries_iff distinct]
  constructor
  · intro entry
    obtain ⟨t, chosen, named, written⟩ := exists_related_left made _ entry
    exact ⟨t, chosen, named.symm, written⟩
  · rintro ⟨t, chosen, rfl, written⟩
    obtain ⟨e, entry, named, same⟩ := exists_related_right made t chosen
    rw [written] at same
    cases same
    exact named ▸ entry

/-- Targets in another order give the same modules, with the same text each, or fail as well. -/
theorem compileAll_perm (r : Registry κ) (catalogue : Catalogue κ) {first second : List Target}
    (perm : first.Perm second) (agree : Target.ScopesAgree first) (apart : r.ProtocolsApart catalogue.type) :
    ((∃ sources, (r.compileAll catalogue first).outcome = .ok sources) ↔
      ∃ sources, (r.compileAll catalogue second).outcome = .ok sources) ∧
    ∀ sources others, (r.compileAll catalogue first).outcome = .ok sources →
      (r.compileAll catalogue second).outcome = .ok others →
      sources.keys.Perm others.keys ∧ ∀ module, sources.find? module = others.find? module := by
  have chosen := Target.onePerModule_perm agree perm
  have compiled : ∀ t,
      r.compile catalogue t (some (r.replacements catalogue.type (Target.onePerModule first).2)) =
        r.compile catalogue t (some (r.replacements catalogue.type (Target.onePerModule second).2)) :=
    fun t => r.compile_congr catalogue t
      (replacements_perm apart (Target.onePerModule_spec first).2.1 chosen)
  constructor
  · rw [exists_compileAll_iff, exists_compileAll_iff]
    simp only [← exists_compile_iff, chosen.mem_iff, compiled]
  · intro sources others done doneToo
    refine ⟨?_, fun module => Option.ext fun text => ?_⟩
    · rw [keys_compileAll done, keys_compileAll doneToo]
      exact chosen.map _
    · rw [find?_compileAll_iff done, find?_compileAll_iff doneToo]
      simp only [chosen.mem_iff, compiled]

end Registry

namespace Workspace

/-- The replacement of one protocol is shown by one target, that of the other by the other target. -/
def portsWorkspace : Workspace :=
  { storeWorkspace with
    classes := storeWorkspace.classes.introduce
      { name := "Port", module := "app.ports", qualifiedName := "Port", bases := [.base .protocol] }
    registry := storeWorkspace.registry.wrapInterface "app.wrappers" 2 "Port" none }

/-- Two files name one module, and only one of them has a scope. -/
def portsTargets : List Target :=
  [{ module := "app.wrappers" }, { module := "app.facades" },
    { module := "app.wrappers", scope := some { name := "scope", module := "app.scopes" } }]

theorem ports_generated :
    ∃ sources, (portsWorkspace.registry.compileAll portsWorkspace.catalogue portsTargets).outcome =
      .ok sources :=
  Registry.exists_compileAll_iff.mpr (by decide +kernel)

theorem ports_compileAll_perm :
    portsTargets.Perm portsTargets.reverse ∧ Target.ScopesAgree portsTargets ∧
    portsWorkspace.registry.ProtocolsApart portsWorkspace.catalogue.type ∧
    ∃ sources others,
      (portsWorkspace.registry.compileAll portsWorkspace.catalogue portsTargets).outcome = .ok sources ∧
      (portsWorkspace.registry.compileAll portsWorkspace.catalogue portsTargets.reverse).outcome =
        .ok others ∧
      sources.keys.Perm others.keys ∧ ∀ module, sources.find? module = others.find? module := by
  have perm : portsTargets.Perm portsTargets.reverse := (List.reverse_perm _).symm
  have agree : Target.ScopesAgree portsTargets := by
    unfold Target.ScopesAgree
    decide
  have apart : portsWorkspace.registry.ProtocolsApart portsWorkspace.catalogue.type := by
    unfold Registry.ProtocolsApart
    decide
  obtain ⟨succeeds, same⟩ :=
    portsWorkspace.registry.compileAll_perm portsWorkspace.catalogue perm agree apart
  obtain ⟨sources, done⟩ := ports_generated
  obtain ⟨others, doneToo⟩ := succeeds.mp ⟨sources, done⟩
  exact ⟨perm, agree, apart, sources, others, done, doneToo, same sources others done doneToo⟩

end Workspace
end SyncFacade
