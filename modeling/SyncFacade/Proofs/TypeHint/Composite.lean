import SyncFacade.TypeHint.Reference
import SyncFacade.Source.Type

/-! Annotations that are put together from classes, generics, unions and callables with listed parameters, to any
depth. Beside the annotation itself stands what it names, and the text that would show all of it. -/
namespace SyncFacade

open TypeHint

/-- What stands by itself in an annotation: nothing, a class, or a class under its alias. -/
inductive SingleType where
  | null
  | nullType
  | cls (c : NamedClass)
  | aliased (name : String) (c : NamedClass) (known : aliasClass? name = some c)

namespace SingleType

def hint : SingleType → TypeHint
  | .null => .null
  | .nullType => .nullType
  | .cls c => .cls c
  | .aliased name _ _ => .alias name

def head : SingleType → NamedClass
  | .null | .nullType => { name := "None", module := "builtins" }
  | .cls c | .aliased _ c _ => c

end SingleType

/-- What is applied to arguments and is no callable: a class, a generic of the typing library, or the union. -/
inductive GenericType where
  | cls (form : Application) (c : NamedClass) (other : c ≠ callableClass)
  | typing (name : String) (known : name ∈ specialClasses)
  | union (byOperator : Bool)

namespace GenericType

def hint (arguments : List TypeHint) : GenericType → TypeHint
  | .cls form c _ => .applied form (.cls c) arguments
  | .typing name _ => .special name arguments
  | .union byOperator => .union byOperator arguments

def head : GenericType → NamedClass
  | .cls _ c _ => c
  | .typing name _ => { name, module := typingModule }
  | .union _ => { name := "Union", module := typingModule }

end GenericType

inductive CompositeType where
  | single (t : SingleType)
  | applied (g : GenericType) (arguments : List CompositeType)
  | callable (form : Application) (parameters : List CompositeType) (result : CompositeType)

namespace CompositeType

mutual

/-- The annotation. A callable has its parameters and its result in one row. -/
def hint : CompositeType → TypeHint
  | .single t => t.hint
  | .applied g as => g.hint (hints as)
  | .callable form ps r => .applied form (.cls callableClass) (hints ps ++ [hint r])

def hints : List CompositeType → List TypeHint
  | [] => []
  | a :: as => hint a :: hints as

end

mutual

/-- The classes that an annotation names, at any depth. -/
def classes : CompositeType → List NamedClass
  | .single t => [t.head]
  | .applied g as => g.head :: classesOfAll as
  | .callable _ ps r => callableClass :: (classesOfAll ps ++ classes r)

def classesOfAll : List CompositeType → List NamedClass
  | [] => []
  | a :: as => classes a ++ classesOfAll as

end

mutual

/-- The classes that stand in no parameter list. -/
def outer : CompositeType → List NamedClass
  | .single t => [t.head]
  | .applied g as => g.head :: outerOfAll as
  | .callable _ _ r => callableClass :: outer r

def outerOfAll : List CompositeType → List NamedClass
  | [] => []
  | a :: as => outer a ++ outerOfAll as

end

mutual

/-- The members of the parameter lists, but for lists that stand in another one. -/
def listed : CompositeType → List CompositeType
  | .single _ => []
  | .applied _ as => listedOfAll as
  | .callable _ ps r => ps ++ listed r

def listedOfAll : List CompositeType → List CompositeType
  | [] => []
  | a :: as => listed a ++ listedOfAll as

end

mutual

/-- The text that shows every part of an annotation: arguments in brackets behind what they are given to, and the
parameters of a callable in brackets of their own. -/
def text (target : Option String) : CompositeType → String
  | .single t => t.head.reference.label target
  | .applied g as =>
    g.head.reference.label target ++ if as.isEmpty then "" else bracketed (texts target as)
  | .callable _ ps r =>
    callableClass.reference.label target ++ bracketed [bracketed (texts target ps), text target r]

def texts (target : Option String) : List CompositeType → List String
  | [] => []
  | a :: as => text target a :: texts target as

end

@[induction_eliminator]
theorem induct {motive : CompositeType → Prop} (single : ∀ t, motive (.single t))
    (applied : ∀ g as, (∀ a ∈ as, motive a) → motive (.applied g as))
    (callable : ∀ form ps r, (∀ p ∈ ps, motive p) → motive r → motive (.callable form ps r)) :
    ∀ a, motive a :=
  @CompositeType.rec motive (fun as => ∀ a ∈ as, motive a) single applied callable (by simp)
    fun _ _ head tail => List.forall_mem_cons.mpr ⟨head, tail⟩

variable {target : Option String}

theorem hints_eq_map (as : List CompositeType) : hints as = as.map hint := by
  induction as with
  | nil => rfl
  | cons a rest ih => rw [hints, ih, List.map_cons]

theorem outerOfAll_eq_flatMap (as : List CompositeType) : outerOfAll as = as.flatMap outer := by
  induction as with
  | nil => rfl
  | cons a rest ih => rw [outerOfAll, ih, List.flatMap_cons]

theorem listedOfAll_eq_flatMap (as : List CompositeType) : listedOfAll as = as.flatMap listed := by
  induction as with
  | nil => rfl
  | cons a rest ih => rw [listedOfAll, ih, List.flatMap_cons]

theorem texts_eq_map (as : List CompositeType) : texts target as = as.map (text target) := by
  induction as with
  | nil => rfl
  | cons a rest ih => rw [texts, ih, List.map_cons]

/-- The reference for an annotation. -/
def reference (a : CompositeType) : TypeRef := a.hint.reference

/-- An annotation without texts and lists is read alike in every place. -/
theorem referenceAt_eq (position : Position) (a : CompositeType) :
    a.hint.referenceAt position = a.reference := by
  cases a with
  | single t => cases t <;> simp [reference, TypeHint.reference, hint, SingleType.hint, referenceAt]
  | applied g as => cases g <;> simp [reference, TypeHint.reference, hint, GenericType.hint, referenceAt]
  | callable form ps r => simp [reference, TypeHint.reference, hint, referenceAt]

theorem argumentReferences_hints (as : List CompositeType) :
    argumentReferences (hints as) = as.map reference := by
  induction as with
  | nil => rfl
  | cons a rest ih => rw [hints, argumentReferences, ih, referenceAt_eq, List.map_cons]

theorem wholeNames_hints (as : List CompositeType) :
    wholeNames (hints as) = as.map fun a => a.reference.qualifiedName := by
  induction as with
  | nil => rfl
  | cons a rest ih => rw [hints, wholeNames, ih, referenceAt_eq, List.map_cons]

theorem reference_single (t : SingleType) : (single t).reference = t.head.reference := by
  cases t with
  | null | nullType | cls => rfl
  | aliased name c known => simp [reference, TypeHint.reference, hint, SingleType.hint, referenceAt, aliasReference,
      known, SingleType.head]

theorem reference_applied (g : GenericType) (as : List CompositeType) :
    (applied g as).reference = g.head.reference.applied (as.map reference) := by
  have inside := argumentReferences_hints as
  cases g with
  | cls form c other =>
    simp [reference, TypeHint.reference, hint, GenericType.hint, referenceAt, isCallable, other, inside,
      GenericType.head]
  | typing name known =>
    simp [reference, TypeHint.reference, hint, GenericType.hint, referenceAt, inside, GenericType.head,
      specialReference, NamedClass.reference, TypeRef.applied, typingModule]
  | union byOperator =>
    simp [reference, TypeHint.reference, hint, GenericType.hint, referenceAt, inside, GenericType.head,
      specialReference, NamedClass.reference, TypeRef.applied, typingModule]

theorem not_isParameters (a : CompositeType) : a.hint.isParameters = false := by
  cases a with
  | single t => cases t <;> rfl
  | applied g as =>
    cases g with
    | cls | union => rfl
    | typing name known =>
      have other : name ≠ "Concatenate" := by rintro rfl; revert known; decide
      cases as <;> simp [hint, hints, GenericType.hint, isParameters, other]
  | callable => rfl

theorem reference_callable (form : Application) (ps : List CompositeType) (r : CompositeType) :
    (callable form ps r).reference = callableClass.reference.applied
      [{ name := bracketed (ps.map fun p => p.reference.qualifiedName) }, r.reference] := by
  have apart : hasParametersInOne (hints ps ++ [r.hint]) = false := by
    rcases ps with _ | ⟨p, _ | ⟨_, _⟩⟩ <;> simp [hints, hasParametersInOne, not_isParameters]
  have names : (wholeNames (hints (ps ++ [r]))).dropLast = ps.map fun p => p.reference.qualifiedName := by
    rw [wholeNames_hints, List.map_append, List.map_singleton, List.dropLast_concat]
  have result : (argumentReferences (hints (ps ++ [r]))).getLast? = some r.reference := by
    rw [argumentReferences_hints, List.map_append, List.map_singleton, List.getLast?_concat]
  have row : hints (ps ++ [r]) = hints ps ++ [r.hint] := by simp [hints_eq_map]
  rw [row] at names result
  simp [reference, TypeHint.reference, hint, referenceAt, isCallable, apart, names, result]

end CompositeType
end SyncFacade
