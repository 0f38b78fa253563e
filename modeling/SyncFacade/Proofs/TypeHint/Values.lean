import SyncFacade.Proofs.TypeHint.AsyncStream
import SyncFacade.Proofs.Value.Argument

/-! The values that a function is declared with: defaults, arguments of literal types and metadata of annotations. A
default is recorded by its text, and a value in an annotation by its name, which is a reference of its own there. -/
namespace SyncFacade

/-- A reference occurs in another one: it is this one, or occurs in an argument of it. -/
inductive TypeRef.Occurs (t : TypeRef) : TypeRef → Prop where
  | here : Occurs t t
  | argument {u w : TypeRef} (member : u ∈ w.arguments) (inside : Occurs t u) : Occurs t w

namespace TypeHint

open TypeRef (Occurs)

/-- What an annotation holds beside types: the arguments of a literal, or metadata. -/
def held : TypeHint → List TypeHint
  | .literal vs => vs
  | .annotated _ es => es
  | _ => []

/-- The arguments that have references of their own. Parameters that stand one by one before a result share one. -/
def kept : TypeHint → List TypeHint
  | .applied _ .null _ => []
  | .applied _ origin as => if origin.isCallable && !hasParametersInOne as then as.getLast?.toList else as
  | .special _ as => as
  | .union _ ms => ms
  | .literal vs => vs
  | .annotated base es => base :: es
  | _ => []

/-- A value is recorded with an annotation: this holds it, or keeps an argument that it is recorded with. -/
inductive Records (v : Value) : TypeHint → Prop where
  | held {a : TypeHint} (member : ofValue v ∈ a.held) : Records v a
  | inside {a b : TypeHint} (kept : b ∈ a.kept) (records : Records v b) : Records v a

variable {a b : TypeHint} {v : Value}

theorem held_subset_kept (a : TypeHint) : a.held ⊆ a.kept := by
  cases a with
  | literal vs => exact List.Subset.refl vs
  | annotated base es => exact List.subset_cons_self base es
  | _ => exact List.nil_subset _

theorem argumentReference_ofValue (v : Value) : (ofValue v).argumentReference = { name := v.argumentName } := by
  cases v <;> rfl

theorem argumentReference_mem {as : List TypeHint} (member : b ∈ as) : b.argumentReference ∈ argumentReferences as := by
  rw [argumentReferences_eq_map]
  exact List.mem_map_of_mem member

theorem argumentReference_mem_applied {form : Application} {origin : TypeHint} {as : List TypeHint}
    (kept : b ∈ (applied form origin as).kept) (position : Position) :
    b.argumentReference ∈ ((applied form origin as).referenceAt position).arguments := by
  have apart : origin ≠ .null := by
    rintro rfl
    contradiction
  rw [TypeHint.kept] at kept
  · rw [referenceAt]
    · dsimp only [TypeRef.applied]
      split at kept
      · rename_i oneByOne
        obtain ⟨before, rfl⟩ := List.getLast?_eq_some_iff.mp (Option.mem_toList.mp kept)
        rw [if_pos oneByOne, argumentReferences_eq_map, List.map_append, List.map_singleton, List.getLast?_concat]
        exact List.mem_cons_of_mem _ List.mem_cons_self
      · rename_i together
        rw [if_neg together]
        exact argumentReference_mem kept
    · exact apart
  · exact apart

/-- The references of kept arguments are arguments of the reference, wherever the annotation stands. -/
theorem argumentReference_mem_arguments (kept : b ∈ a.kept) (position : Position) :
    b.argumentReference ∈ (a.referenceAt position).arguments := by
  cases a with
  | applied form origin as => exact argumentReference_mem_applied kept position
  | special name as => exact argumentReference_mem kept
  | union byOperator ms => exact argumentReference_mem kept
  | literal vs => exact argumentReference_mem kept
  | annotated base es =>
    rcases List.mem_cons.mp kept with rfl | member
    · exact List.mem_cons_self
    · exact List.mem_cons_of_mem _ (argumentReference_mem member)
  | _ => contradiction

/-- Every recorded value has a reference in that of the annotation, by its name as an argument. -/
theorem Records.occurs (records : Records v a) (position : Position) :
    Occurs { name := v.argumentName } (a.referenceAt position) := by
  induction records generalizing position with
  | held member =>
    have argument := argumentReference_mem_arguments (held_subset_kept _ member) position
    rw [argumentReference_ofValue] at argument
    exact .argument argument .here
  | inside kept _ ih => exact .argument (argumentReference_mem_arguments kept position) (ih .argument)

end TypeHint

namespace Function

open TypeHint (Records)
open Value (IsSource)

/-- An annotation as recorded, with a name in it for each value. The name is the source of the value exactly if the
value is plain and told from its name. -/
structure NamesValues (declared : Option TypeHint) (type : Option TypeRef) : Prop where
  type : type = declared.map TypeHint.reference
  occurs : ∀ a ∈ declared, ∀ v, Records v a → TypeRef.Occurs { name := v.argumentName } a.reference
  source : ∀ a ∈ declared, ∀ v, Records v a → v.Formed →
    (IsSource v v.argumentName ↔ v.isPlain = true ∧ v.isTold = true)

/-- A parameter as recorded. The text of its default is the source of this exactly if the default is plain. -/
structure ShowsDefault (f : Function) (names : Names) (p : DeclaredParameter) (q : Parameter) : Prop where
  default : q.default = p.default.map Value.text
  source : ∀ v ∈ p.default, v.Formed → (IsSource v v.text ↔ v.isPlain = true)
  annotation : NamesValues (f.annotationOf names p) q.type

theorem namesValues_reference (declared : Option TypeHint) :
    NamesValues declared (declared.map TypeHint.reference) where
  type := rfl
  occurs _ _ _ records := records.occurs .whole
  source _ _ _ _ formed := Value.isSource_argumentName_iff formed

/-- Every function is described, and every value that it is declared with has a text in the description. Which of these
texts are source is seen from the values alone. -/
theorem value_source_iff (f : Function) (names : Names) (qualifiedName : String) (inherited : Option String) :
    ∃ records m, f.describe names qualifiedName inherited = ⟨records, .ok m⟩ ∧
      List.Forall₂ (f.ShowsDefault names) f.arguments m.parameters ∧
      NamesValues (f.result.map (f.evaluated names)) m.result := by
  refine ⟨_, _, rfl, ?_, namesValues_reference _⟩
  rw [List.forall₂_map_right_iff, List.forall₂_same]
  exact fun p _ => ⟨rfl, fun _ _ formed => Value.isSource_text_iff formed, namesValues_reference _⟩

/-- A function that waits without a limit if none is given. The metadata of the limit are the units that it may have. -/
def wait : Function where
  name := "wait"
  parameters := [
    { name := "self" },
    { name := "limit"
      type := some (.annotated (.cls { name := "float", module := "builtins" }) [.value (.list [.str "s", .str "ms"])])
      default := some (.float (.infinite false)) }]

/-- Neither the default nor the metadata are recorded as source: both show names that mean nothing. -/
theorem wait_not_source : ∃ records m, wait.describe (fun _ => none) "Timer.wait" none = ⟨records, .ok m⟩ ∧
    m.parameters.map (·.default) = [some "inf"] ∧
    m.parameters.map (·.type) =
      [some ⟨"Annotated", some "typing", [⟨"float", none, []⟩, ⟨"[s, ms]", none, []⟩]⟩] ∧
    ¬ IsSource (.float (.infinite false)) "inf" ∧ ¬ IsSource (.list [.str "s", .str "ms"]) "[s, ms]" := by
  refine ⟨_, _, rfl, by decide, by decide, ?_, ?_⟩
  · exact mt (Value.isSource_text_iff (v := .float (.infinite false)) rfl).mp (by decide)
  · exact mt (Value.isSource_argumentName_iff (v := .list [.str "s", .str "ms"]) rfl).mp (by decide)

end Function

end SyncFacade
