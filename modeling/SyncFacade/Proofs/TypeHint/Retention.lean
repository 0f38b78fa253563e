import SyncFacade.Proofs.TypeHint.Composite
import Mathlib.Algebra.Order.BigOperators.Group.List
import Mathlib.Algebra.Order.Ring.Nat

/-! What a generated module still shows of an annotation. Everything survives but the parameter lists, whose
members are shown by their names only: an annotation is kept whole if names are all there is to its lists. Texts
are compared by weights that add up along them, since a text does not tell where its parts end. -/
namespace SyncFacade

open TypeHint

/-- A weight that adds up along texts, as their length does. -/
structure Weight where
  of : String → Nat
  append : ∀ s t, of (s ++ t) = of s + of t

namespace Weight

def length : Weight := ⟨String.length, fun s t => by simp⟩

/-- The number of opening brackets. -/
def brackets : Weight := ⟨fun s => s.toList.count '[', fun s t => by simp [List.count_append]⟩

variable (w : Weight)

theorem empty : w.of "" = 0 := by
  have twice := w.append "" ""
  rw [String.append_empty] at twice
  omega

theorem intercalate (separator : String) (ss : List String) :
    w.of (separator.intercalate ss) = (ss.map w.of).sum + (ss.length - 1) * w.of separator := by
  induction ss with
  | nil => simp [w.empty]
  | cons s rest ih =>
    cases rest with
    | nil => simp
    | cons t more =>
      rw [String.intercalate_cons_cons, w.append, w.append, ih]
      simp only [List.map_cons, List.sum_cons, List.length_cons, Nat.add_sub_cancel, Nat.add_mul]
      omega

theorem bracketed (ss : List String) : w.of (bracketed ss) =
    w.of "[" + ((ss.map w.of).sum + (ss.length - 1) * w.of ", ") + w.of "]" := by
  rw [SyncFacade.bracketed, w.append, w.append, w.intercalate]

end Weight

/-- Sums over a list agree only if their terms do, where no term of the one exceeds that of the other. -/
theorem eq_of_sum_map_eq {α : Type} {f g : α → Nat} {as : List α} (bounded : ∀ a ∈ as, f a ≤ g a)
    (same : (as.map f).sum = (as.map g).sum) : ∀ a ∈ as, f a = g a := by
  induction as with
  | nil => simp
  | cons a rest ih =>
    obtain ⟨first, later⟩ := List.forall_mem_cons.mp bounded
    have total := List.sum_le_sum later
    simp only [List.map_cons, List.sum_cons] at same
    exact List.forall_mem_cons.mpr ⟨by omega, ih later (by omega)⟩

namespace TypeRef

theorem render_applied (target : Option String) (t : TypeRef) (arguments : List TypeRef) :
    (t.applied arguments).render target =
      t.label target ++ if arguments.isEmpty then "" else bracketed (arguments.map (render target)) := by
  have inside : renderAll target arguments = arguments.map (render target) := by
    induction arguments with
    | nil => rfl
    | cons a rest ih => rw [renderAll, ih, List.map_cons]
  cases arguments with
  | nil => rfl
  | cons a rest => rw [applied, render, inside]; rfl

theorem modules_applied (t : TypeRef) (arguments : List TypeRef) :
    (t.applied arguments).modules = t.qualifier.toList ++ arguments.flatMap modules := by
  have inside : modulesOfAll arguments = arguments.flatMap modules := by
    induction arguments with
    | nil => rfl
    | cons a rest ih => rw [modulesOfAll, ih, List.flatMap_cons]
  rw [applied, modules, inside]; rfl

end TypeRef

namespace NamedClass

variable {target : Option String} {c : NamedClass}

theorem modules_reference (c : NamedClass) : c.reference.modules = c.reference.qualifier.toList :=
  (c.reference.modules_applied []).trans (by simp)

theorem render_reference (c : NamedClass) : c.reference.render target = c.reference.label target :=
  (c.reference.render_applied target []).trans (by simp)

/-- A class of the target itself is written without its module. Any other class is written in full. -/
def WrittenInFull (target : Option String) (c : NamedClass) : Prop :=
  c.module = "builtins" ∨ c.module = "" ∨ some c.module ≠ target

theorem qualifier_reference (c : NamedClass) : c.reference.qualifier =
    if c.module = "builtins" ∨ c.module = "" then none else some c.module := by
  by_cases builtin : c.module = "builtins" <;> by_cases unnamed : c.module = "" <;>
    simp [reference, TypeRef.qualifier, Option.filter, builtin, unnamed]

theorem WrittenInFull.label (full : c.WrittenInFull target) :
    c.reference.label target = c.reference.qualifiedName := by
  have kept : c.reference.printedQualifier target = c.reference.qualifier := by
    rw [TypeRef.printedQualifier, qualifier_reference]
    split
    · rfl
    · simp_all [WrittenInFull, Option.filter]
  rw [TypeRef.label, kept]; rfl

theorem label_own (short : ¬ c.WrittenInFull target) : target = some c.module ∧
    c.reference.label target = c.name ∧ c.reference.qualifiedName = c.module ++ "." ++ c.name := by
  simp only [WrittenInFull, not_or, not_not] at short
  obtain ⟨builtin, unnamed, own⟩ := short
  have qualifier : c.reference.qualifier = some c.module := by simp [qualifier_reference, builtin, unnamed]
  have dropped : c.reference.printedQualifier target = none := by
    simp [TypeRef.printedQualifier, qualifier, Option.filter, ← own]
  exact ⟨own.symm, by rw [TypeRef.label, dropped]; rfl, by rw [TypeRef.qualifiedName, qualifier]; rfl⟩

theorem brackets_label (plain : ∀ m ∈ target, '[' ∉ m.toList) :
    Weight.brackets.of (c.reference.label target) = Weight.brackets.of c.reference.qualifiedName := by
  by_cases full : c.WrittenInFull target
  · rw [full.label]
  · obtain ⟨own, label, qualified⟩ := label_own full
    have absent : c.module.toList.count '[' = 0 := List.count_eq_zero.mpr (plain c.module own)
    simp [label, qualified, Weight.brackets, absent]

theorem length_label_le : (c.reference.label target).length ≤ c.reference.qualifiedName.length := by
  by_cases full : c.WrittenInFull target
  · rw [full.label]
  · obtain ⟨-, label, qualified⟩ := label_own full
    simp [label, qualified]

theorem writtenInFull_of_length (same : (c.reference.label target).length = c.reference.qualifiedName.length) :
    c.WrittenInFull target := by
  by_contra short
  obtain ⟨-, label, qualified⟩ := label_own short
  simp [label, qualified] at same

end NamedClass

namespace CompositeType

variable {target : Option String}

theorem classes_ne_nil (a : CompositeType) : a.classes ≠ [] := by
  cases a <;> exact List.cons_ne_nil _ _

/-- Without arguments an annotation is a class, and else it shows them in brackets. -/
theorem text_cases (target : Option String) (a : CompositeType) : ∃ c : NamedClass,
    a.reference.qualifiedName = c.reference.qualifiedName ∧
      (a.classes = [c] ∧ a.text target = c.reference.label target ∨
        1 < a.classes.length ∧ ∃ ss, a.text target = c.reference.label target ++ bracketed ss) := by
  cases a with
  | single t => exact ⟨t.head, by rw [reference_single], .inl ⟨rfl, rfl⟩⟩
  | applied g as =>
    refine ⟨g.head, by rw [reference_applied]; rfl, ?_⟩
    cases as with
    | nil => exact .inl ⟨rfl, by simp [text]⟩
    | cons a rest =>
      have inside := List.length_pos_of_ne_nil a.classes_ne_nil
      exact .inr ⟨by simp [classes, classesOfAll]; omega, texts target (a :: rest), by simp [text]⟩
  | callable form ps r =>
    have inside := List.length_pos_of_ne_nil r.classes_ne_nil
    exact ⟨callableClass, by rw [reference_callable]; rfl,
      .inr ⟨by simp [classes]; omega, [bracketed (texts target ps), text target r], rfl⟩⟩

theorem modules_reference (a : CompositeType) :
    a.reference.modules = a.outer.flatMap fun c => c.reference.qualifier.toList := by
  induction a with
  | single t => rw [reference_single, t.head.modules_reference, outer, List.flatMap_singleton]
  | applied g as ih =>
    rw [reference_applied, TypeRef.modules_applied, outer, outerOfAll_eq_flatMap, List.flatMap_cons,
      List.flatMap_assoc, List.flatMap_map, List.flatMap_congr ih]
  | callable form ps r _ ih =>
    rw [reference_callable, TypeRef.modules_applied, outer]
    simp [ih, TypeRef.modules, TypeRef.modulesOfAll, TypeRef.qualifier]

theorem render_callable (form : Application) (ps : List CompositeType) (r : CompositeType) :
    (callable form ps r).reference.render target = callableClass.reference.label target ++
      bracketed [bracketed (ps.map fun p => p.reference.qualifiedName), r.reference.render target] := by
  have names (s : String) : TypeRef.render target { name := s } = s := by
    simp [TypeRef.render, TypeRef.label, TypeRef.printedQualifier, TypeRef.qualifier]
  rw [reference_callable, TypeRef.render_applied]
  simp [names]

/-- What is shown differs from what there is by what is shown of the listed parameters. -/
theorem weight_render (target : Option String) (w : Weight) (a : CompositeType) :
    w.of (a.reference.render target) + (a.listed.map fun p => w.of (p.text target)).sum =
      w.of (a.text target) + (a.listed.map fun p => w.of p.reference.qualifiedName).sum := by
  induction a with
  | single t => rw [reference_single, t.head.render_reference, text, listed, List.map_nil, List.map_nil]
  | applied g as ih =>
    have balanced : (as.map fun a => w.of (a.reference.render target)).sum +
          (as.map fun a => (a.listed.map fun p => w.of (p.text target)).sum).sum =
        (as.map fun a => w.of (a.text target)).sum +
          (as.map fun a => (a.listed.map fun p => w.of p.reference.qualifiedName).sum).sum := by
      rw [← List.sum_map_add, ← List.sum_map_add, List.map_congr_left ih]
    have gathered (f : CompositeType → Nat) :
        ((applied g as).listed.map f).sum = (as.map fun a => (a.listed.map f).sum).sum := by
      rw [listed, listedOfAll_eq_flatMap, List.map_flatMap, List.flatMap_def, List.sum_flatten,
        List.map_map, Function.comp_def]
    rw [reference_applied, TypeRef.render_applied, text, texts_eq_map, w.append, w.append, gathered, gathered]
    cases as with
    | nil => rfl
    | cons a rest =>
      simp only [List.map_map, Function.comp_def, List.isEmpty_map, List.isEmpty_cons, Bool.false_eq_true,
        if_false, w.bracketed, List.length_map]
      omega
  | callable form ps r _ ih =>
    rw [render_callable, text, texts_eq_map, w.append, w.append, w.bracketed, w.bracketed, listed]
    simp only [List.map_cons, List.map_nil, List.sum_cons, List.sum_nil, w.bracketed, List.map_append,
      List.sum_append, List.map_map, Function.comp_def, List.length_map, List.length_cons, List.length_nil]
    omega

theorem render_reference {a : CompositeType}
    (same : ∀ p ∈ a.listed, p.reference.qualifiedName = p.text target) :
    a.reference.render target = a.text target := by
  induction a with
  | single t => rw [reference_single, t.head.render_reference, text]
  | applied g as ih =>
    have inside : as.map (fun a => a.reference.render target) = as.map (text target) := by
      refine List.map_congr_left fun a among => ih a among fun p member => same p ?_
      rw [listed, listedOfAll_eq_flatMap]
      exact List.mem_flatMap_of_mem among member
    rw [reference_applied, TypeRef.render_applied, text, texts_eq_map, List.map_map, Function.comp_def, inside,
      List.isEmpty_map]
  | callable form ps r _ ih =>
    simp only [listed, List.forall_mem_append] at same
    rw [render_callable, text, texts_eq_map, List.map_congr_left same.1, ih same.2]

/-- An annotation is kept in a module: the classes of other modules are imported, and its text is whole. -/
structure Kept (target : Option String) (a : CompositeType) : Prop where
  imported : ∀ c ∈ a.classes, c.module ≠ "builtins" → some c.module ≠ target →
    c.module ∈ a.reference.modules
  text : a.reference.render target = a.text target

/-- Names are enough for an annotation: what a parameter list holds are classes without arguments that the target
does not abbreviate, and a class in such a list shares its module with one outside. -/
structure NamesSuffice (target : Option String) (a : CompositeType) : Prop where
  imported : ∀ c ∈ a.classes, c.module ≠ "builtins" → some c.module ≠ target →
    c.module ≠ "" ∧ ∃ d ∈ a.outer, d.module = c.module
  listed : ∀ p ∈ a.listed, ∃ c, p.classes = [c] ∧ c.WrittenInFull target

theorem imported_iff (a : CompositeType) {c : NamedClass} (known : c.module ≠ "builtins") :
    c.module ∈ a.reference.modules ↔ c.module ≠ "" ∧ ∃ d ∈ a.outer, d.module = c.module := by
  rw [modules_reference, List.mem_flatMap]
  constructor
  · rintro ⟨d, member, among⟩
    rw [NamedClass.qualifier_reference] at among
    split at among
    · contradiction
    · rename_i full
      simp only [Option.toList_some, List.mem_singleton] at among
      exact ⟨fun empty => full (.inr (among ▸ empty)), d, member, among.symm⟩
  · rintro ⟨full, d, member, same⟩
    exact ⟨d, member, by simp [NamedClass.qualifier_reference, same, known, full]⟩

/-- The name of an annotation has no more opening brackets than its text, and fewer if there are arguments. -/
theorem brackets_qualifiedName (plain : ∀ m ∈ target, '[' ∉ m.toList) (a : CompositeType) :
    Weight.brackets.of a.reference.qualifiedName ≤ Weight.brackets.of (a.text target) ∧
      (Weight.brackets.of a.reference.qualifiedName = Weight.brackets.of (a.text target) →
        ∃ c : NamedClass, a.classes = [c] ∧ a.reference.qualifiedName = c.reference.qualifiedName ∧
          a.text target = c.reference.label target) := by
  obtain ⟨c, named, ⟨one, whole⟩ | ⟨-, ss, more⟩⟩ := a.text_cases target
  · rw [named, whole, NamedClass.brackets_label plain]
    exact ⟨le_rfl, fun _ => ⟨c, one, rfl, rfl⟩⟩
  · have opened : Weight.brackets.of "[" = 1 := by decide
    rw [named, more, Weight.append, NamedClass.brackets_label plain, Weight.bracketed, opened]
    exact ⟨by omega, fun same => by omega⟩

/-- The opening brackets show that no listed parameter has arguments. The length shows then that none of them is
abbreviated. -/
theorem text_kept_iff {a : CompositeType} (plain : ∀ m ∈ target, '[' ∉ m.toList) :
    a.reference.render target = a.text target ↔
      ∀ p ∈ a.listed, ∃ c, p.classes = [c] ∧ c.WrittenInFull target := by
  constructor
  · intro whole
    have same (w : Weight) : (a.listed.map fun p => w.of p.reference.qualifiedName).sum =
        (a.listed.map fun p => w.of (p.text target)).sum := by
      have balanced := a.weight_render target w
      rw [whole] at balanced
      omega
    have single : ∀ p ∈ a.listed, ∃ c : NamedClass, p.classes = [c] ∧
        p.reference.qualifiedName = c.reference.qualifiedName ∧ p.text target = c.reference.label target :=
      fun p member => (p.brackets_qualifiedName plain).2 <|
        eq_of_sum_map_eq (fun p _ => (p.brackets_qualifiedName plain).1) (same .brackets) p member
    have shorter : ∀ p ∈ a.listed,
        Weight.length.of (p.text target) ≤ Weight.length.of p.reference.qualifiedName := by
      intro p member
      obtain ⟨c, -, named, written⟩ := single p member
      rw [named, written]
      exact NamedClass.length_label_le
    intro p member
    obtain ⟨c, one, named, written⟩ := single p member
    have even := eq_of_sum_map_eq shorter (same .length).symm p member
    rw [named, written] at even
    exact ⟨c, one, NamedClass.writtenInFull_of_length even⟩
  · intro names
    refine render_reference fun p member => ?_
    obtain ⟨c, one, full⟩ := names p member
    obtain ⟨d, named, ⟨same, written⟩ | ⟨more, -⟩⟩ := p.text_cases target
    · obtain rfl : c = d := List.singleton_inj.mp (one.symm.trans same)
      rw [named, written, full.label]
    · simp [one] at more

/-- An annotation survives on its way into a module exactly if names are enough for it. -/
theorem annotation_kept_iff {target : Option String} (a : CompositeType)
    (plain : ∀ m ∈ target, '[' ∉ m.toList) : a.Kept target ↔ a.NamesSuffice target := by
  have imports : (∀ c ∈ a.classes, c.module ≠ "builtins" → some c.module ≠ target →
      c.module ∈ a.reference.modules) ↔ ∀ c ∈ a.classes, c.module ≠ "builtins" → some c.module ≠ target →
        c.module ≠ "" ∧ ∃ d ∈ a.outer, d.module = c.module :=
    forall₃_congr fun c _ known => by rw [a.imported_iff known]
  have whole := text_kept_iff (a := a) plain
  exact ⟨fun kept => ⟨imports.mp kept.imported, whole.mp kept.text⟩,
    fun names => ⟨imports.mpr names.imported, whole.mpr names.listed⟩⟩

def wrappersModule : Option String := some "app.wrappers"

def user : CompositeType := .single (.cls { name := "User", module := "app.models" })

def integer : CompositeType := .single (.cls { name := "int", module := "builtins" })

def listClass : GenericType := .cls .direct { name := "list", module := "builtins" } (by decide)

/-- A callable from a number to lists of users. -/
def lookup : CompositeType := .callable .signature [integer] (.applied listClass [user])

theorem lookup_kept : lookup.Kept wrappersModule :=
  (annotation_kept_iff lookup (by decide)).mpr
    { imported := by decide
      listed := fun p member => ⟨{ name := "int", module := "builtins" }, by
        obtain rfl : p = integer := List.mem_singleton.mp member
        exact ⟨rfl, .inl rfl⟩⟩ }

/-- A callable that takes users and lists of numbers. -/
def visitor : CompositeType := .callable .signature [user, .applied listClass [integer]] (.single .null)

/-- The module of the users is not imported, and the lists are no longer of numbers. -/
theorem visitor_not_kept : visitor.reference.modules = ["collections.abc"] ∧
    visitor.text wrappersModule = "collections.abc.Callable[[app.models.User, list[int]], None]" ∧
    visitor.reference.render wrappersModule = "collections.abc.Callable[[app.models.User, list], None]" ∧
    ¬ visitor.Kept wrappersModule := by
  refine ⟨by decide, by decide, by decide, fun kept => ?_⟩
  have imported := kept.imported { name := "User", module := "app.models" }
  revert imported
  decide

end CompositeType
end SyncFacade
