import SyncFacade.GeneratedModule
import SyncFacade.Proofs.Source.Layout
import SyncFacade.Proofs.TargetChoice
import SyncFacade.Proofs.Wrapping

/-! What a run that succeeds has made: the modules of some targets from one target for each, each module from
the interfaces and wrappers of what its target shows, and each of these from a description. A run in which all
of these are made succeeds: there is nothing in them that cannot be written. -/
namespace SyncFacade

theorem ClassInfo.chooseSubstitution_ok {c : ClassInfo} {replacements : OrderedMap TypeRef TypeRef}
    {s : Substitution} (chosen : (c.chooseSubstitution replacements).outcome = .ok (some s)) :
    s.replaced ∈ c.supertypes ∧ replacements.find? s.replaced = some s.generated := by
  unfold chooseSubstitution at chosen
  cases candidates : c.replaceable replacements with
  | nil =>
    simp only [candidates] at chosen
    cases chosen
  | cons replaced others =>
    simp only [candidates] at chosen
    have member : replaced ∈ c.replaceable replacements := by simp [candidates]
    have found : (replacements.find? replaced).map (fun generated => Substitution.mk replaced generated) =
        some s := by
      split at chosen
      · obtain ⟨_, _, rest⟩ := Logged.exists_of_bind_ok chosen
        exact Except.ok.inj rest
      · exact Except.ok.inj chosen
    obtain ⟨generated, present, rfl⟩ := Option.map_eq_some_iff.mp found
    exact ⟨(List.mem_filter.mp member).1, present⟩

namespace Target

variable {κ : Type}

theorem compileInterface_ok {t : Target} {describe : κ → Logged GenerationError ClassInfo} {name : String}
    {key : κ} {i : Interface} (made : (t.compileInterface describe name key).outcome = .ok i) :
    ∃ c, (describe key).outcome = .ok c ∧ i = c.replacement name (some t.module) := by
  obtain ⟨c, described, same⟩ := Logged.exists_of_bind_ok made
  cases same
  exact ⟨c, described, rfl⟩

theorem compileClass_ok {t : Target} {describe : κ → Logged GenerationError ClassInfo}
    {replacements : OrderedMap TypeRef TypeRef} {w : Wrapping κ} {made : Option Interface × Wrapper}
    (compiled : (t.compileClass describe replacements w).outcome = .ok made) :
    ∃ c substitution, (describe w.key).outcome = .ok c ∧
      (c.chooseSubstitution replacements).outcome = .ok substitution ∧
      made.1 = w.interface.map (fun name =>
        (c.deriveInterface { name, module := some t.module }).interface (some (interfaceDoc w.name))) ∧
      WrapsClass c {
        wrapperName := w.name
        module := some t.module
        scope := t.scope
        interface := w.interface.map fun name => c.deriveInterface { name, module := some t.module }
        substitution } made.2 := by
  obtain ⟨c, described, chosen⟩ := Logged.exists_of_bind_ok compiled
  obtain ⟨substitution, found, wrapping⟩ := Logged.exists_of_bind_ok chosen
  obtain ⟨wrapper, wrapped, same⟩ := Logged.exists_of_bind_ok wrapping
  cases same
  exact ⟨c, substitution, described, found, Option.map_map .., wrapsClass_of_compile wrapped⟩

theorem bodied_of_compileClass {t : Target} {describe : κ → Logged GenerationError ClassInfo}
    {replacements : OrderedMap TypeRef TypeRef} {classes : List (Wrapping κ)}
    {compiled : List (Option Interface × Wrapper)}
    (made : List.Forall₂ (fun w c => (t.compileClass describe replacements w).outcome = .ok c) classes compiled) :
    Bodied (compiled.map Prod.snd) := by
  intro v among
  obtain ⟨c, listed, rfl⟩ := List.mem_map.mp among
  obtain ⟨w, _, done⟩ := exists_related_left made c listed
  obtain ⟨_, _, _, _, _, wraps⟩ := compileClass_ok done
  exact wraps.exists_body

end Target

namespace Registry

variable {κ : Type}

/-- The classes that a target shows, as they are to be wrapped. -/
def wrappings (r : Registry κ) (target : String) : List (Wrapping κ) :=
  (r.classesOf target).entries.map fun (name, key, interface) => { name, key, interface }

theorem values_wrappings (r : Registry κ) (target : String) :
    (OrderedMap.ofList ((r.wrappings target).map fun w => (w.name, w))).values = r.wrappings target := by
  have names : ((r.wrappings target).map fun w => (w.name, w)).map Prod.fst = (r.classesOf target).keys := by
    simp only [wrappings, List.map_map]
    rfl
  rw [OrderedMap.ofList_of_nodup (names ▸ OrderedMap.nodup_keys_ofList _), OrderedMap.values, List.map_map]
  exact List.map_id _

theorem entries_interfacesOf (r : Registry κ) (target : String) :
    (OrderedMap.ofList (r.interfacesOf target).entries).entries = (r.interfacesOf target).entries := by
  rw [interfacesOf, OrderedMap.ofList_entries_ofList]

/-- What is made for a target: an interface for each replacement that it shows, and a wrapper for each class, together
with the interface that was asked for. -/
structure Makes (r : Registry κ) (catalogue : Catalogue κ) (t : Target) (replacements : OrderedMap TypeRef TypeRef)
    (replaced : List Interface) (compiled : List (Option Interface × Wrapper)) : Prop where
  interfaces : List.Forall₂ (fun e i => (t.compileInterface catalogue.describe e.1 e.2).outcome = .ok i)
    (r.interfacesOf t.module).entries replaced
  classes : List.Forall₂ (fun w c => (t.compileClass catalogue.describe replacements w).outcome = .ok c)
    (r.wrappings t.module) compiled

/-- A module is the text of what is made for its target. -/
theorem compile_ok {r : Registry κ} {catalogue : Catalogue κ} {t : Target}
    {replacements : OrderedMap TypeRef TypeRef} {text : String}
    (made : (r.compile catalogue t (some replacements)).outcome = .ok text) :
    ∃ (replaced : List Interface) (compiled : List (Option Interface × Wrapper)),
      r.Makes catalogue t replacements replaced compiled ∧
      moduleText (some t.module) (replaced ++ compiled.filterMap Prod.fst) (compiled.map Prod.snd) t.scope =
        .ok text := by
  obtain ⟨replaced, interfaces, later⟩ := Logged.exists_of_bind_ok made
  obtain ⟨compiled, classes, written⟩ := Logged.exists_of_bind_ok later
  rw [r.entries_interfacesOf t.module] at interfaces
  have values := r.values_wrappings t.module
  rw [wrappings] at values
  rw [values] at classes
  exact ⟨replaced, compiled, ⟨Logged.mapM_outcome_ok interfaces, Logged.mapM_outcome_ok classes⟩, written⟩

/-- Everything can be made that a target needs: its protocols and its classes can be described, and there is a scope
where one is needed. -/
def CanMake (r : Registry κ) (catalogue : Catalogue κ) (t : Target) (replacements : OrderedMap TypeRef TypeRef) :
    Prop :=
  (∀ e ∈ (r.interfacesOf t.module).entries, (t.compileInterface catalogue.describe e.1 e.2).outcome.isOk) ∧
    ∀ w ∈ r.wrappings t.module, (t.compileClass catalogue.describe replacements w).outcome.isOk

instance (r : Registry κ) (catalogue : Catalogue κ) (t : Target) (replacements : OrderedMap TypeRef TypeRef) :
    Decidable (r.CanMake catalogue t replacements) := inferInstanceAs (Decidable (_ ∧ _))

/-- There is a text whenever everything for it can be made. -/
theorem exists_compile_iff {r : Registry κ} {catalogue : Catalogue κ} {t : Target}
    {replacements : OrderedMap TypeRef TypeRef} :
    (∃ text, (r.compile catalogue t (some replacements)).outcome = .ok text) ↔ r.CanMake catalogue t replacements := by
  constructor
  · rintro ⟨text, made⟩
    obtain ⟨replaced, compiled, makes, _⟩ := compile_ok made
    refine ⟨fun e listed => ?_, fun w listed => ?_⟩
    · obtain ⟨i, _, done⟩ := exists_related_right makes.interfaces e listed
      rw [done]
      rfl
    · obtain ⟨c, _, done⟩ := exists_related_right makes.classes w listed
      rw [done]
      rfl
  · rintro ⟨protocols, wraps⟩
    have entries := r.entries_interfacesOf t.module
    have values := r.values_wrappings t.module
    refine Logged.exists_ok_of_bind (Logged.mapM_ok_of_each fun e listed => ?_) fun replaced => ?_
    · exact exists_of_isOk (protocols e (entries ▸ listed))
    · obtain ⟨compiled, done⟩ := Logged.mapM_ok_of_each fun w listed => exists_of_isOk (wraps w listed)
      obtain ⟨source, lines⟩ := exists_moduleLines
        (Target.bodied_of_compileClass (Logged.mapM_outcome_ok done)) (some t.module)
        (replaced ++ compiled.filterMap (·.1)) t.scope
      rw [← values] at done
      refine ⟨Text.joinLines source ++ "\n", ?_⟩
      have written := Logged.bind_ok (fun compiled => Logged.ofExcept (moduleText (some t.module)
        (replaced ++ compiled.filterMap (·.1)) (compiled.map (·.2)) t.scope)) done
      refine (congrArg Logged.outcome written).trans ?_
      rw [Logged.ofExcept, moduleText, lines]
      rfl

theorem replacements_find? {r : Registry κ} {type : κ → TypeRef} {targets : List Target}
    {replaced generated : TypeRef} (found : (r.replacements type targets).find? replaced = some generated) :
    ∃ t ∈ targets, ∃ name ∈ (r.interfacesOf t.module).keys,
      generated = { name, module := some t.module } := by
  obtain ⟨t, member, shown⟩ := List.mem_flatMap.mp (OrderedMap.find?_ofList_iff.mp found).mem
  obtain ⟨e, among, same⟩ := List.mem_map.mp shown
  cases same
  exact ⟨t, member, e.1, List.mem_map_of_mem among, rfl⟩

theorem compileAll_ok {r : Registry κ} {catalogue : Catalogue κ} {targets : List Target}
    {sources : OrderedMap String String}
    (done : (r.compileAll catalogue targets).outcome = .ok sources) :
    List.Forall₂ (fun t e => e.1 = t.module ∧ (r.compile catalogue t (some
        (r.replacements catalogue.type (Target.onePerModule targets).2))).outcome = .ok e.2)
      (Target.onePerModule targets).2 sources.entries := by
  obtain ⟨_, _, later⟩ := Logged.exists_of_bind_ok done
  obtain ⟨texts, compiled, same⟩ := Logged.exists_of_bind_ok later
  cases same
  have each := Logged.mapM_outcome_ok compiled
  have related : List.Forall₂ (fun t e => e.1 = t.module ∧ (r.compile catalogue t (some
        (r.replacements catalogue.type (Target.onePerModule targets).2))).outcome = .ok e.2)
      (Target.onePerModule targets).2 texts := by
    refine each.imp fun t e made => ?_
    obtain ⟨_, _, rest⟩ := Logged.exists_of_bind_ok made
    obtain ⟨text, written, pair⟩ := Logged.exists_of_bind_ok rest
    cases pair
    exact ⟨rfl, written⟩
  have modules : texts.map Prod.fst = (Target.onePerModule targets).2.map Target.module :=
    map_eq_map_of_related (related.flip.imp fun _ _ both => both.1)
  rw [OrderedMap.ofList_of_nodup (modules ▸ (Target.onePerModule_spec targets).2.1)]
  exact related

theorem exists_compileAll_iff {r : Registry κ} {catalogue : Catalogue κ} {targets : List Target} :
    (∃ sources, (r.compileAll catalogue targets).outcome = .ok sources) ↔
      ∀ t ∈ (Target.onePerModule targets).2,
        r.CanMake catalogue t (r.replacements catalogue.type (Target.onePerModule targets).2) := by
  simp only [← exists_compile_iff]
  constructor
  · rintro ⟨sources, done⟩ t chosen
    obtain ⟨e, _, _, made⟩ := exists_related_right (compileAll_ok done) t chosen
    exact ⟨e.2, made⟩
  · intro each
    refine Logged.exists_ok_of_bind ⟨(), rfl⟩ fun _ => ?_
    refine Logged.exists_ok_of_bind (Logged.mapM_ok_of_each fun t chosen => ?_) fun texts => ⟨_, rfl⟩
    refine Logged.exists_ok_of_bind ⟨(), rfl⟩ fun _ => ?_
    exact Logged.exists_ok_of_bind (each t chosen) fun text => ⟨_, rfl⟩

end Registry

end SyncFacade
