import SyncFacade.Proofs.Compilation
import SyncFacade.Proofs.Mirror
import SyncFacade.Proofs.Source.Fragments
import SyncFacade.Proofs.Source.Openings

/-! The lines of a module that is made from what is registered. All that is written as it is comes from descriptions,
from the names of registrations and from targets. As long as none of these has a line break, no line has one. -/
namespace SyncFacade

namespace TypeRef

theorem fragmentsOfAll_eq (ts : List TypeRef) : fragmentsOfAll ts = ts.flatMap fragments := by
  induction ts with
  | nil => rfl
  | cons t ts ih => rw [fragmentsOfAll, ih, List.flatMap_cons]

theorem mem_fragments_of_argument {t a : TypeRef} (listed : a ∈ t.arguments) {s : String}
    (member : s ∈ a.fragments) : s ∈ t.fragments := by
  obtain ⟨name, module, arguments⟩ := t
  rw [fragments, fragmentsOfAll_eq]
  exact List.mem_append_right _ (List.mem_flatMap.mpr ⟨a, listed, member⟩)

theorem oneLine_fragments_applied {name module : String} (own : OneLine name) (defined : OneLine module)
    {arguments : List TypeRef} (inside : ∀ a ∈ arguments, ∀ s ∈ a.fragments, OneLine s) :
    ∀ s ∈ fragments { name, module := some module, arguments }, OneLine s := by
  rw [fragments, fragmentsOfAll_eq]
  simp only [Option.toList_some, List.cons_append, List.nil_append, List.forall_mem_cons,
    List.forall_mem_flatMap]
  exact ⟨own, defined, inside⟩

end TypeRef

theorem oneLine_streamElement {result : Option TypeRef} (plain : ∀ s ∈ annotationFragments result, OneLine s) :
    ∀ a ∈ (streamElement result).toList, ∀ s ∈ a.fragments, OneLine s := by
  intro a listed s member
  obtain ⟨iterator, rest, rfl, _, arguments⟩ :=
    (streamElement_itemType result a).mp (Option.mem_toList.mp listed)
  have argument : a ∈ iterator.arguments := by simp [arguments]
  exact plain s (TypeRef.mem_fragments_of_argument argument member)

namespace Method

theorem oneLine_exposedResult {m : Method} (plain : ∀ s ∈ annotationFragments m.result, OneLine s) :
    ∀ s ∈ annotationFragments m.exposedResult, OneLine s := by
  unfold exposedResult
  split
  · exact plain
  · refine TypeRef.oneLine_fragments_applied (by decide) (by decide) fun a listed s member => plain s ?_
    rw [Option.mem_toList.mp listed]
    exact member
  · exact TypeRef.oneLine_fragments_applied (by decide) (by decide) (oneLine_streamElement plain)

theorem oneLine_declared {m : Method} (plain : ∀ s ∈ m.fragments, OneLine s) :
    ∀ s ∈ m.declared.fragments, OneLine s := by
  simp only [fragments, List.cons_append, List.forall_mem_cons, List.forall_mem_append] at plain ⊢
  exact ⟨plain.1, plain.2.1, oneLine_exposedResult plain.2.2⟩

end Method

namespace ClassInfo

variable {c : ClassInfo} (plain : ∀ s ∈ c.fragments, OneLine s)
include plain

theorem oneLine_parts : (∀ s ∈ c.type.fragments, OneLine s) ∧
    (∀ m ∈ c.methods, ∀ s ∈ m.fragments, OneLine s) ∧ ∀ t ∈ c.supertypes, ∀ s ∈ t.fragments, OneLine s := by
  simp only [fragments, List.cons_append, List.forall_mem_cons, List.forall_mem_append,
    List.forall_mem_flatMap] at plain
  obtain ⟨name, ⟨module, methods⟩, supertypes⟩ := plain
  refine ⟨?_, methods, supertypes⟩
  rw [type, TypeRef.fragments, TypeRef.fragmentsOfAll, List.append_nil]
  exact List.forall_mem_cons.mpr ⟨name, module⟩

theorem oneLine_derived {name : String} (named : OneLine name) (module doc : Option String) :
    ∀ s ∈ ((c.deriveInterface { name, module }).interface doc).fragments, OneLine s := by
  obtain ⟨_, methods, _⟩ := c.oneLine_parts plain
  simp only [Interface.fragments, InterfaceBinding.interface, deriveInterface, List.flatMap_nil,
    List.append_nil, List.forall_mem_cons, List.forall_mem_flatMap, List.forall_mem_map]
  exact ⟨named, fun m declared => m.oneLine_declared (methods m declared)⟩

end ClassInfo

theorem WrapsMethod.oneLine_fragments {context : Context} {m n : Method} (wraps : WrapsMethod context m n)
    (plain : ∀ s ∈ m.fragments, OneLine s) (provided : ∀ p ∈ context.scope, OneLine p.name) :
    ∀ s ∈ n.fragments ++ (n.body.map Body.fragments).getD [], OneLine s := by
  have own : ∀ s ∈ n.fragments, OneLine s := by
    have same : n.fragments = m.declared.fragments := by
      rw [Method.fragments, wraps.name, wraps.parameters, wraps.result]
      rfl
    exact same ▸ Method.oneLine_declared plain
  simp only [Method.fragments, List.cons_append, List.forall_mem_cons, List.forall_mem_append] at plain
  have call : ∀ s ∈ (ownCall m).fragments, OneLine s := by
    simp only [Call.fragments, ownCall, List.forall_mem_cons]
    exact ⟨by decide, plain.1, plain.2.1⟩
  obtain ⟨body, present, adapts⟩ := wraps.adapts
  rw [List.forall_mem_append, present]
  refine ⟨own, ?_⟩
  generalize n.result = result at adapts
  cases adapts with
  | direct => exact call
  | deferred p _ scope => exact List.forall_mem_cons.mpr ⟨provided p scope, call⟩
  | streaming p _ _ scope => exact List.forall_mem_cons.mpr ⟨provided p scope, call⟩

theorem WrapsClass.oneLine_fragments {c : ClassInfo} {context : Context} {w : Wrapper}
    (wraps : WrapsClass c context w) (plain : ∀ s ∈ c.fragments, OneLine s) (named : OneLine context.wrapperName)
    (provided : ∀ p ∈ context.scope, OneLine p.name)
    (bound : ∀ t ∈ context.interface.map InterfaceBinding.type, ∀ s ∈ t.fragments, OneLine s)
    (replacing : ∀ u ∈ context.substitution, ∀ s ∈ u.generated.fragments, OneLine s) :
    ∀ s ∈ w.fragments, OneLine s := by
  obtain ⟨type, methods, supertypes⟩ := c.oneLine_parts plain
  have field : OneLine "wrapped" := by decide
  have declared : ∀ t ∈ w.supertypes, ∀ s ∈ t.fragments, OneLine s := by
    rw [wraps.supertypes, wrapperSupertypes, List.forall_mem_append, List.forall_mem_map]
    refine ⟨fun t listed => ?_, fun t listed => bound t (Option.mem_toList.mp listed)⟩
    have kept := supertypes t listed
    cases chosen : context.substitution with
    | none => exact kept
    | some u =>
      simp only
      split
      · exact replacing u (by simp [chosen])
      · exact kept
  simp only [Wrapper.fragments, wraps.name, wraps.delegate, wraps.construction, DelegateField.fragments,
    Constructor.fragments, List.cons_append, List.forall_mem_cons, List.forall_mem_append,
    List.forall_mem_flatMap]
  refine ⟨named, field, ⟨⟨type, ?_⟩, declared⟩, ?_⟩
  · simpa [Parameter.fragments, annotationFragments, field] using type
  · intro n listed
    obtain ⟨m, own, method⟩ := exists_related_left wraps.methods n listed
    exact List.forall_mem_append.mp (method.oneLine_fragments (methods m own) provided)

namespace Registry

variable {κ : Type}

/-- No name, no text of a type and no default has a line break, as far as some targets show it. -/
structure Unbroken (r : Registry κ) (describe : κ → Logged GenerationError ClassInfo) (targets : List Target) :
    Prop where
  modules : ∀ t ∈ targets, OneLine t.module
  scopes : ∀ t ∈ targets, ∀ p ∈ t.scope, ∀ s ∈ p.fragments, OneLine s
  interfaces : ∀ t ∈ targets, ∀ e ∈ (r.interfacesOf t.module).entries,
    OneLine e.1 ∧ ∀ c, (describe e.2).outcome = .ok c → ∀ s ∈ c.fragments, OneLine s
  classes : ∀ t ∈ targets, ∀ w ∈ r.wrappings t.module, OneLine w.name ∧ (∀ name ∈ w.interface, OneLine name) ∧
    ∀ c, (describe w.key).outcome = .ok c → ∀ s ∈ c.fragments, OneLine s

theorem Unbroken.mono {r : Registry κ} {describe : κ → Logged GenerationError ClassInfo}
    {targets fewer : List Target} (unbroken : r.Unbroken describe targets) (among : ∀ t ∈ fewer, t ∈ targets) :
    r.Unbroken describe fewer where
  modules t listed := unbroken.modules t (among t listed)
  scopes t listed := unbroken.scopes t (among t listed)
  interfaces t listed := unbroken.interfaces t (among t listed)
  classes t listed := unbroken.classes t (among t listed)

theorem Unbroken.generated {r : Registry κ} {describe : κ → Logged GenerationError ClassInfo}
    {targets : List Target} (unbroken : r.Unbroken describe targets) {type : κ → TypeRef} {replaced generated : TypeRef}
    (found : (r.replacements type targets).find? replaced = some generated) :
    ∀ s ∈ generated.fragments, OneLine s := by
  obtain ⟨t, listed, name, shown, rfl⟩ := replacements_find? found
  obtain ⟨e, among, rfl⟩ := List.mem_map.mp shown
  exact TypeRef.oneLine_fragments_applied (unbroken.interfaces t listed e among).1 (unbroken.modules t listed) (by simp)

/-- The text of a module that is made is that of its lines, and its lines have no line break in them. -/
theorem exists_lines_of_compile {r : Registry κ} {catalogue : Catalogue κ} {targets : List Target}
    (unbroken : r.Unbroken catalogue.describe targets) {t : Target} (listed : t ∈ targets) {text : String}
    (made : (r.compile catalogue t (some (r.replacements catalogue.type targets))).outcome = .ok text) :
    ∃ (interfaces : List Interface) (wrappers : List Wrapper) (source : List String),
      moduleLines (some t.module) interfaces wrappers t.scope = .ok source ∧ text = Text.ended source ∧
      ∀ l ∈ source, OneLine l := by
  obtain ⟨replaced, compiled, ⟨interfaces, classes⟩, written⟩ := compile_ok made
  obtain ⟨source, lines, rfl⟩ := exists_of_map_ok written
  have plainModule := unbroken.modules t listed
  have protocols : ∀ i ∈ replaced ++ compiled.filterMap Prod.fst, ∀ s ∈ i.fragments, OneLine s := by
    rw [List.forall_mem_append]
    constructor
    · intro i member
      obtain ⟨e, shown, result⟩ := exists_related_left interfaces i member
      obtain ⟨c, described, rfl⟩ := Target.compileInterface_ok result
      obtain ⟨named, plain⟩ := unbroken.interfaces t listed e shown
      exact c.oneLine_derived (plain c described) named _ _
    · intro i member
      obtain ⟨pair, among, asked⟩ := List.mem_filterMap.mp member
      obtain ⟨w, shown, result⟩ := exists_related_left classes pair among
      obtain ⟨c, _, described, _, binding, _⟩ := Target.compileClass_ok result
      obtain ⟨_, bound, plain⟩ := unbroken.classes t listed w shown
      rw [binding] at asked
      obtain ⟨name, wanted, rfl⟩ := Option.map_eq_some_iff.mp asked
      exact c.oneLine_derived (plain c described) (bound name wanted) _ _
  have wrappers : ∀ v ∈ compiled.map Prod.snd, ∀ s ∈ v.fragments, OneLine s := by
    intro v member
    obtain ⟨pair, among, rfl⟩ := List.mem_map.mp member
    obtain ⟨w, shown, result⟩ := exists_related_left classes pair among
    obtain ⟨c, substitution, described, chosen, _, wraps⟩ := Target.compileClass_ok result
    obtain ⟨named, bound, plain⟩ := unbroken.classes t listed w shown
    refine wraps.oneLine_fragments (plain c described) named ?_ ?_ ?_
    · intro p provided
      exact unbroken.scopes t listed p provided p.name List.mem_cons_self
    · intro u binding
      obtain ⟨b, derived, rfl⟩ := Option.map_eq_some_iff.mp binding
      obtain ⟨name, wanted, rfl⟩ := Option.map_eq_some_iff.mp derived
      exact TypeRef.oneLine_fragments_applied (bound name wanted) plainModule (by simp)
    · rintro u replacing
      cases replacing
      exact unbroken.generated (ClassInfo.chooseSubstitution_ok chosen).2
  exact ⟨_, _, source, lines, ended_of_moduleLines lines,
    oneLine_moduleLines protocols wrappers (unbroken.scopes t listed) lines⟩

end Registry

end SyncFacade
