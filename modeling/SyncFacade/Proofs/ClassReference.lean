import SyncFacade.Proofs.Bases
import SyncFacade.Proofs.Namespace

/-! What generated code calls a class. Annotations, bases and replacements know it by its qualified name. Its
description has the last part of this alone, and the wrapper refers to the class by its description. So the wrapper
speaks of the same class as the rest only if the class is not defined inside another one. -/
namespace SyncFacade

theorem ClassDeclaration.inner_name_ne (d : ClassDeclaration) (name : String) (number : Nat) :
    (d.inner name number).name ≠ (d.inner name number).qualifiedName := by
  intro same
  have even : name.length = (d.qualifiedName ++ "." ++ name).length := congrArg String.length same
  have dot : ".".length = 1 := rfl
  rw [String.length_append, String.length_append] at even
  omega

/-- The classes that a body has made are called by less than their qualified names. -/
def ClassBody.ShortNamed (b : ClassBody) : Prop := ∀ c ∈ b.classes, c.name ≠ c.qualifiedName

theorem ClassBody.ShortNamed.run {b : ClassBody} (short : b.ShortNamed) (d : ClassDeclaration)
    (number place : Nat) (member : Member) : (b.run d number place member).ShortNamed := by
  cases member with
  | function | value | delete => exact short
  | sameAs name target =>
    rw [ClassBody.run]
    split <;> exact short
  | inner name =>
    intro c made
    rcases List.mem_append.mp made with earlier | last
    · exact short c earlier
    · rw [List.mem_singleton.mp last]
      exact d.inner_name_ne name _

theorem ClassDeclaration.shortNamed_run (d : ClassDeclaration) (number : Nat) : (d.run number).ShortNamed := by
  have all (lines : List (Member × Nat)) (b : ClassBody) (short : b.ShortNamed) :
      (lines.foldl (fun b line => b.run d number line.2 line.1) b).ShortNamed := by
    induction lines generalizing b with
    | nil => exact short
    | cons line rest ih => exact ih _ (short.run d number line.2 line.1)
  exact all d.members.zipIdx _ (by simp [ClassBody.ShortNamed])

namespace ClassTable

/-- The class of the number was declared in the body of another one. -/
inductive DeclaredInside : ClassTable → Nat → Prop where
  | body {t : ClassTable} {d : ClassDeclaration} {number : Nat} : t.classes.size < number →
      number < (t.introduce d).classes.size → DeclaredInside (t.introduce d) number
  | introduce {t : ClassTable} {number : Nat} (d : ClassDeclaration) : DeclaredInside t number →
      DeclaredInside (t.introduce d) number
  | renamed {t : ClassTable} {number : Nat} (exposed : OrderedMap (String × String) Nat) :
      DeclaredInside t number → DeclaredInside { t with exposed } number

/-- What the classes of a table are called, and their qualified names. -/
def callings (t : ClassTable) : List (String × String) :=
  t.classes.toList.map fun c => (c.name, c.qualifiedName)

theorem length_callings (t : ClassTable) : t.callings.length = t.classes.size := by
  rw [callings, List.length_map, Array.length_toList]

theorem callings_expose (t : ClassTable) (number : Nat) (module qualifiedName : String) :
    (t.expose number module qualifiedName).callings = t.callings := by
  unfold expose
  split
  · rfl
  · rfl
  · split
    · rfl
    · rename_i n _
      refine List.ext_getElem? fun i => ?_
      simp only [callings, Array.toList_modify, List.getElem?_map, List.getElem?_modify]
      cases t.classes.toList[i]? with
      | none => rfl
      | some c => by_cases here : n = i <;> simp [here]
    · rfl

theorem callings_introduce (t : ClassTable) (d : ClassDeclaration) : ∃ own, (t.introduce d).callings =
    t.callings ++ own :: (d.run t.classes.size).classes.map fun c => (c.name, c.qualifiedName) := by
  have declared : ∃ own, (t.declare d).callings =
      t.callings ++ own :: (d.run t.classes.size).classes.map fun c => (c.name, c.qualifiedName) := by
    simp only [callings, declare, Array.toList_appendList, Array.toList_push, List.map_append, List.append_assoc]
    exact ⟨_, rfl⟩
  simp only [introduce]
  split
  · rwa [callings_expose]
  · exact declared

theorem DeclaredInside.exists_calling {t : ClassTable} {number : Nat} (inside : t.DeclaredInside number) :
    ∃ e, t.callings[number]? = some e ∧ e.1 ≠ e.2 := by
  induction inside with
  | @body t d number first last =>
    obtain ⟨own, callings⟩ := t.callings_introduce d
    obtain ⟨e, listed⟩ : ∃ e, (t.introduce d).callings[number]? = some e :=
      ⟨_, List.getElem?_eq_getElem (by rwa [length_callings])⟩
    refine ⟨e, listed, ?_⟩
    obtain ⟨k, place⟩ : ∃ k, number - t.classes.size = k + 1 := ⟨number - t.classes.size - 1, by omega⟩
    rw [callings, List.getElem?_append_right (by rw [length_callings]; omega), length_callings, place,
      List.getElem?_cons_succ] at listed
    obtain ⟨c, made, rfl⟩ := List.mem_map.mp (List.mem_of_getElem? listed)
    exact d.shortNamed_run t.classes.size c made
  | @introduce t number d _ ih =>
    obtain ⟨e, listed, apart⟩ := ih
    obtain ⟨own, callings⟩ := t.callings_introduce d
    obtain ⟨bound, -⟩ := List.getElem?_eq_some_iff.mp listed
    exact ⟨e, by rw [callings, List.getElem?_append_left bound, listed], apart⟩
  | renamed exposed _ ih => exact ih

/-- A class that is declared inside another one is never called by its qualified name. -/
theorem DeclaredInside.name_ne {t : ClassTable} {number : Nat} (inside : t.DeclaredInside number)
    {c : DeclaredClass} (found : t.find? number = some c) : c.name ≠ c.qualifiedName := by
  obtain ⟨e, listed, apart⟩ := inside.exists_calling
  have here : t.classes.toList[number]? = some c := Array.getElem?_toList.trans found
  rw [callings, List.getElem?_map, here] at listed
  cases listed
  exact apart

end ClassTable

theorem ClassTable.reference_named {t : ClassTable} {number : Nat} {c : DeclaredClass}
    (found : t.find? number = some c) (outside : c.module ≠ "builtins") :
    (t.named? number).map (fun named => (TypeHint.cls named).reference) = some c.type := by
  simp [named?, found, TypeHint.reference, TypeHint.referenceAt, NamedClass.reference, outside, DeclaredClass.type]

namespace Workspace

/-- The reference that all mentions of a class have: in the annotations of modules that have it in a variable, among
the interfaces of classes that extend it, and in the replacements of interfaces. -/
structure MentionedAs (w : Workspace) (number : Nat) (u : TypeRef) : Prop where
  annotated : ∀ module global, w.get? module global = some (.cls number) →
    (w.names module global).map TypeHint.reference = some u
  extended : ∀ sub d, w.classes.find? sub = some d → .declared number ∈ d.bases →
    w.classes.isInterface (.declared number) = true →
      ∃ info, (w.catalogue.describe sub).outcome = .ok info ∧ u ∈ info.supertypes
  replaced : ∀ (targets : List Target), ∀ t ∈ targets, ∀ name,
    (name, number) ∈ (w.registry.interfacesOf t.module).entries →
      (w.registry.replacements w.catalogue.type targets).contains u = true

variable {w : Workspace} {number : Nat} {c : DeclaredClass}

theorem type_declared (found : w.classes.find? number = some c) : w.catalogue.type number = c.type := by
  simp [catalogue, ClassTable.type, found]

/-- A declared class can always be described. -/
theorem exists_described (found : w.classes.find? number = some c) :
    ∃ info, (w.catalogue.describe number).outcome = .ok info ∧
      info.type = { name := c.name, module := some c.module } ∧
      info.supertypes = (c.bases.filter w.classes.isInterface).map w.classes.type := by
  obtain ⟨info, described, -⟩ := ClassTable.exists_description (t := w.reachableClasses)
    (fun c _ => w.names c.home) found
  obtain ⟨d, same, type, supertypes⟩ := ClassTable.describe_ok described
  cases found.symm.trans same
  exact ⟨info, described, type, supertypes⟩

theorem mentionedAs_type (found : w.classes.find? number = some c) (outside : c.module ≠ "builtins") :
    w.MentionedAs number c.type where
  annotated := fun module global held => by
    have meaning := ClassTable.reference_named found outside
    rw [names, held, Option.bind_some, Workspace.meaning, Option.map_map]
    exact meaning
  extended := fun sub d derived base interface => by
    obtain ⟨info, described, -, supertypes⟩ := exists_described derived
    refine ⟨info, described, ?_⟩
    rw [supertypes, ← type_declared found]
    exact List.mem_map.mpr ⟨.declared number, List.mem_filter.mpr ⟨base, interface⟩, rfl⟩
  replaced := fun targets t among name registered => by
    rw [OrderedMap.contains_iff, Registry.replacements, OrderedMap.mem_keys_ofList]
    refine List.mem_map.mpr ⟨(c.type, { name, module := some t.module }), ?_, rfl⟩
    refine List.mem_flatMap.mpr ⟨t, among, List.mem_map.mpr ⟨(name, number), registered, ?_⟩⟩
    simp only [type_declared found]

/-- A wrapper refers to the wrapped class as all other code does exactly if the class is called by its qualified
name, which none is that was declared inside another one. -/
theorem described_type_iff (w : Workspace) {number : Nat} {c : DeclaredClass}
    (found : w.classes.find? number = some c) (outside : c.module ≠ "builtins") :
    ∃ info u, (w.catalogue.describe number).outcome = .ok info ∧ w.MentionedAs number u ∧
      (w.classes.named? number).map (fun named => (TypeHint.cls named).reference) = some u ∧
      (info.type = u ↔ c.name = c.qualifiedName) ∧ (w.classes.DeclaredInside number → info.type ≠ u) ∧
      ∀ context wrapper, (info.compile context).outcome = .ok wrapper →
        wrapper.delegate.type = info.type ∧ wrapper.constructor.parameters.map (·.type) = [some info.type] := by
  obtain ⟨info, described, type, -⟩ := exists_described found
  have same : info.type = c.type ↔ c.name = c.qualifiedName := by simp [type, DeclaredClass.type]
  refine ⟨info, c.type, described, mentionedAs_type found outside, ClassTable.reference_named found outside, same,
    fun inside shared => inside.name_ne found (same.mp shared), fun context wrapper compiled => ?_⟩
  have wraps := wrapsClass_of_compile compiled
  exact ⟨by rw [wraps.delegate], by rw [wraps.construction]; rfl⟩

/-- Two classes of one name, of which one is defined inside another class. -/
def modelsWorkspace : Workspace where
  classes := (({} : ClassTable).introduce
      { name := "Entry", module := "app.models", qualifiedName := "Entry" }).introduce
      { name := "Entry", module := "app.models", qualifiedName := "Log.Entry" }

theorem entry_described : ∃ info u,
    (modelsWorkspace.catalogue.describe 0).outcome = .ok info ∧ modelsWorkspace.MentionedAs 0 u ∧
      info.type = u := by
  obtain ⟨c, found⟩ : ∃ c, modelsWorkspace.classes.find? 0 = some c := ⟨_, rfl⟩
  have outside : c.module ≠ "builtins" := by
    cases found
    decide
  obtain ⟨info, u, described, mentioned, -, same, -, -⟩ := described_type_iff modelsWorkspace found outside
  cases found
  exact ⟨info, u, described, mentioned, same.mpr rfl⟩

/-- By its description the inner class is the other one of its name. -/
theorem inner_entry_misnamed : ∃ info,
    (modelsWorkspace.catalogue.describe 1).outcome = .ok info ∧
      info.type = { name := "Entry", module := some "app.models" } ∧
      (modelsWorkspace.classes.named? 1).map (fun named => (TypeHint.cls named).reference) =
        some { name := "Log.Entry", module := some "app.models" } ∧
      modelsWorkspace.catalogue.type 0 = info.type :=
  ⟨_, rfl, rfl, rfl, rfl⟩

end Workspace
end SyncFacade
