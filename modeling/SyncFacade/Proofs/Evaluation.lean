import SyncFacade.Function.Forwarding
import SyncFacade.Proofs.Sequencing
import Mathlib.Data.List.Forall2

/-! What one annotation of a function does to the description of the rest. Annotations are evaluated together: a
text without a meaning leaves all of them as they are written. So two versions of a function, with and without such
a text at one parameter, are described alike as far as the other annotations read the same before their evaluation
and after it. How the signature of a function is found from its declaration is not known here; it is assumed to show
an annotation at the parameter that has it, and where surplus of the same kind is collected. -/
namespace SyncFacade

namespace DeclaredParameter

def annotated (name : String) (a : TypeHint) (p : DeclaredParameter) : DeclaredParameter :=
  if p.name = name then { p with type := some a } else p

variable {name : String} {a b : TypeHint} {own inner : List DeclaredParameter}

@[simp] theorem annotated_name (p : DeclaredParameter) : (p.annotated name a).name = p.name := by
  unfold annotated; split <;> rfl

@[simp] theorem annotated_kind (p : DeclaredParameter) : (p.annotated name a).kind = p.kind := by
  unfold annotated; split <;> rfl

@[simp] theorem annotated_default (p : DeclaredParameter) : (p.annotated name a).default = p.default := by
  unfold annotated; split <;> rfl

theorem annotated_other {p : DeclaredParameter} (other : p.name ≠ name) : p.annotated name a = p := if_neg other

/-- Two parameters that are declared alike, but for annotations that are left open. -/
structure AlikeBut (isOpen : String → ParameterKind → Prop) (p q : DeclaredParameter) : Prop where
  name : q.name = p.name
  kind : q.kind = p.kind
  default : q.default = p.default
  type : ¬ isOpen p.name p.kind → q.type = p.type

/-- Whether a parameter that a caller sees takes its annotation from the one of the given name: it has this name, or
both collect the same surplus. -/
def Draws (own : List DeclaredParameter) (name : String) (shown : String) (kind : ParameterKind) : Prop :=
  shown = name ∨ ∃ r ∈ own, r.name = name ∧ r.isSurplus ∧ r.kind = kind

theorem annotated_alike (own : List DeclaredParameter) (p : DeclaredParameter) :
    AlikeBut (Draws own name) (p.annotated name a) (p.annotated name b) where
  name := by simp
  kind := by simp
  default := by simp
  type := fun apart => by
    have other : p.name ≠ name := fun same => apart (.inl (by simpa using same))
    rw [annotated_other other, annotated_other other]

theorem map_alike (own : List DeclaredParameter) : List.Forall₂ (AlikeBut (Draws own name))
    (own.map (annotated name a)) (own.map (annotated name b)) := by
  rw [List.forall₂_map_left_iff, List.forall₂_map_right_iff, List.forall₂_same]
  exact fun p _ => annotated_alike own p

theorem AlikeBut.isSurplus {isOpen : String → ParameterKind → Prop} {p q : DeclaredParameter}
    (alike : p.AlikeBut isOpen q) : q.isSurplus = p.isSurplus := by
  simp only [DeclaredParameter.isSurplus, alike.kind]

theorem AlikeBut.rank {isOpen : String → ParameterKind → Prop} {p q : DeclaredParameter}
    (alike : p.AlikeBut isOpen q) : q.rank = p.rank := by
  simp only [DeclaredParameter.rank, alike.kind]

theorem AlikeBut.isPositional {isOpen : String → ParameterKind → Prop} {p q : DeclaredParameter}
    (alike : p.AlikeBut isOpen q) : q.isPositional = p.isPositional := by
  simp only [DeclaredParameter.isPositional, alike.kind]

theorem Draws.same_name {p : DeclaredParameter} (draws : Draws own name p.name p.kind)
    (positional : p.isPositional) : p.name = name := by
  obtain same | ⟨r, -, -, surplus, kind⟩ := draws
  · exact same
  · simp [DeclaredParameter.isSurplus, DeclaredParameter.isPositional, kind] at surplus positional
    rcases surplus with first | first <;> simp [first] at positional

theorem AlikeBut.positionalOnly {p q : DeclaredParameter} (alike : p.AlikeBut (Draws own name) q) :
    p.positionalOnly.AlikeBut (Draws own name) q.positionalOnly := by
  unfold DeclaredParameter.positionalOnly
  rw [alike.isPositional]
  split
  · rename_i positional
    exact ⟨alike.name, rfl, alike.default,
      fun apart => alike.type fun draws => apart (.inl (draws.same_name positional))⟩
  · exact alike

theorem AlikeBut.required {isOpen : String → ParameterKind → Prop} {p q : DeclaredParameter}
    (alike : p.AlikeBut isOpen q) : p.required.AlikeBut isOpen q.required := by
  unfold DeclaredParameter.required
  rw [alike.isPositional]
  split
  · exact ⟨alike.name, alike.kind, rfl, alike.type⟩
  · exact alike

theorem find?_map_annotated (test : String → ParameterKind → Bool) (own : List DeclaredParameter) :
    (own.map (annotated name a)).find? (fun p => test p.name p.kind) =
      (own.find? fun p => test p.name p.kind).map (annotated name a) := by
  rw [List.find?_map]
  simp only [Function.comp_def, annotated_name, annotated_kind]

theorem behind_alike (p : DeclaredParameter) : AlikeBut (Draws own name)
    (behind (own.map (annotated name a)) inner p) (behind (own.map (annotated name b)) inner p) := by
  unfold behind
  split
  · rename_i collects
    refine ⟨rfl, rfl, rfl, fun apart => ?_⟩
    rw [find?_map_annotated (fun _ kind => kind = p.kind), find?_map_annotated (fun _ kind => kind = p.kind)]
    cases found : own.find? (fun r => decide (r.kind = p.kind)) with
    | none => rfl
    | some r =>
      have kind : r.kind = p.kind := by simpa using List.find?_some found
      have surplus : r.isSurplus := by
        simp only [Bool.and_eq_true, DeclaredParameter.isSurplus] at collects
        simpa only [DeclaredParameter.isSurplus, kind] using collects.1
      have other : r.name ≠ name := fun same =>
        apart (.inr ⟨r, List.mem_of_find?_eq_some found, same, surplus, kind⟩)
      simp [annotated_other other]
  · exact ⟨rfl, rfl, rfl, fun _ => rfl⟩

/-- How signatures are found does not depend on the annotation of a parameter, but for the annotations that are drawn
from it. -/
def FollowsDeclaration (sees : List DeclaredParameter → List DeclaredParameter) (own : List DeclaredParameter)
    (name : String) : Prop :=
  ∀ a b, List.Forall₂ (AlikeBut (Draws own name)) (sees (own.map (annotated name a)))
    (sees (own.map (annotated name b)))

theorem id_follows (own : List DeclaredParameter) (name : String) : FollowsDeclaration id own name :=
  fun _ _ => map_alike own

/-- Neither the filters nor the order of a forwarded signature depend on annotations. -/
theorem forwarding_follows (own inner : List DeclaredParameter) (name : String) :
    FollowsDeclaration (forwarding · inner) own name := by
  intro a b
  have declared : List.Forall₂ (AlikeBut (Draws own name)) (own.map (annotated name a))
      (own.map (annotated name b)) := map_alike own
  have kept := List.rel_filter (p := (!·.isSurplus)) (q := (!·.isSurplus))
    (fun _ _ alike => by simp only [alike.isSurplus]) declared
  have passed : List.Forall₂ (AlikeBut (Draws own name)) (inner.map (behind (own.map (annotated name a)) inner))
      (inner.map (behind (own.map (annotated name b)) inner)) := by
    rw [List.forall₂_map_left_iff, List.forall₂_map_right_iff, List.forall₂_same]
    exact fun p _ => behind_alike p
  have order (p q p' q' : DeclaredParameter) (alike : p.AlikeBut (Draws own name) q)
      (alike' : p'.AlikeBut (Draws own name) q') :
      decide (p.rank ≤ p'.rank) = decide (q.rank ≤ q'.rank) := by rw [alike.rank, alike'.rank]
  have first {l u : List DeclaredParameter} (alike : List.Forall₂ (AlikeBut (Draws own name)) l u) :
      List.Forall₂ (AlikeBut (Draws own name)) (l.map positionalOnly) (u.map positionalOnly) :=
    List.rel_map (R := AlikeBut (Draws own name)) (fun _ _ same => same.positionalOnly) alike
  have bare {l u : List DeclaredParameter} (alike : List.Forall₂ (AlikeBut (Draws own name)) l u) :
      List.Forall₂ (AlikeBut (Draws own name)) (l.map required) (u.map required) :=
    List.rel_map (R := AlikeBut (Draws own name)) (fun _ _ same => same.required) alike
  have fronted (forced : Bool) : List.Forall₂ (AlikeBut (Draws own name))
      (if forced then ((own.map (annotated name a)).filter (!·.isSurplus)).map positionalOnly
        else (own.map (annotated name a)).filter (!·.isSurplus))
      (if forced then ((own.map (annotated name b)).filter (!·.isSurplus)).map positionalOnly
        else (own.map (annotated name b)).filter (!·.isSurplus)) := by
    cases forced
    · exact kept
    · exact first kept
  unfold forwarding
  refine related_mergeSort order (List.rel_append ?_ passed)
  cases inner.find? isPositional with
  | none => exact fronted _
  | some p =>
    cases missing : p.default.isNone <;> simp only [missing]
    · exact fronted _
    · exact bare (fronted _)

end DeclaredParameter

/-- Whether an annotation is recorded alike with its value and as written. Only a text need not be. -/
def TypeHint.ReadsAlike (names : Names) (a : TypeHint) : Prop :=
  ∀ s b, a = .text s → names s = some b → b.reference = { name := s }

theorem TypeHint.reference_value_iff {names : Names} {a : TypeHint} (known : (a.evaluate? names).isSome) :
    a.reference = ((a.evaluate? names).getD a).reference ↔ a.ReadsAlike names := by
  cases a with
  | text s =>
    obtain ⟨b, meaning⟩ := Option.isSome_iff_exists.mp known
    have written : (TypeHint.text s).reference = { name := s } := rfl
    have meaning' : names s = some b := meaning
    simp only [meaning, Option.getD_some, written, ReadsAlike, TypeHint.text.injEq]
    constructor
    · rintro same _ _ rfl other
      obtain rfl : b = _ := Option.some.inj (meaning'.symm.trans other)
      exact same.symm
    · exact fun alike => (alike s b rfl meaning').symm
  | _ => simp [TypeHint.evaluate?, ReadsAlike]

namespace Function

open DeclaredParameter

/-- The function with the given annotation at a parameter, and the signature that is found for it. -/
def annotated (f : Function) (sees : List DeclaredParameter → List DeclaredParameter) (changed : String)
    (a : TypeHint) : Function :=
  { f with
    parameters := f.parameters.map (·.annotated changed a)
    signature := sees (f.parameters.map (·.annotated changed a)) }

def ownHint (f : Function) (name : String) : Option TypeHint :=
  (f.parameters.find? (·.name = name)).bind (·.type)

/-- All annotations but that of one parameter have a value. -/
structure OthersEvaluate (f : Function) (names : Names) (changed : String) : Prop where
  parameters : ∀ p ∈ f.parameters, p.name ≠ changed → ∀ a ∈ p.type, (a.evaluate? names).isSome
  result : ∀ a ∈ f.result, (a.evaluate? names).isSome

/-- A plain function or a generator whose result is given by a text that stands for a stream. -/
structure StreamsByText (f : Function) (names : Names) : Prop where
  kind : f.callKind = .plain ∨ f.callKind = .generator
  result : ∃ s b, f.result = some (.text s) ∧ names s = some b ∧ b.isAsyncStream = true

structure SharesParameter (f : Function) (names : Names) (changed : String) (p q : Parameter) : Prop where
  name : q.name = p.name
  kind : q.kind = p.kind
  default : q.default = p.default
  type : ¬ Draws f.parameters changed p.name p.kind →
    (q.type = p.type ↔ ∀ a ∈ f.ownHint p.name, a.ReadsAlike names)

/-- What two versions of a function share, which differ in the annotation of one parameter: it has a value in the
first, and in the second it is a text that has none. -/
structure SharesMethod (f : Function) (names : Names) (changed : String) (m n : Method) : Prop where
  name : n.name = m.name
  suspends : n.suspends = m.suspends
  overrides : n.overrides = m.overrides
  doc : n.doc = m.doc
  convention : n.convention = m.convention ↔ ¬ f.StreamsByText names
  result : n.result = m.result ↔ ∀ a ∈ f.result, a.ReadsAlike names
  parameters : List.Forall₂ (f.SharesParameter names changed) m.parameters n.parameters

variable {f : Function} {sees : List DeclaredParameter → List DeclaredParameter} {names : Names} {changed s : String}
  {a : TypeHint}

theorem evaluates_annotated (others : f.OthersEvaluate names changed) (known : (a.evaluate? names).isSome) :
    (f.annotated sees changed a).evaluates names = true := by
  simp only [evaluates, annotations, annotated, List.all_eq_true, List.mem_append, List.mem_filterMap,
    List.mem_map, Option.mem_toList]
  rintro b (⟨_, ⟨p, member, rfl⟩, typed⟩ | result)
  · by_cases same : p.name = changed
    · have given : some a = some b := by simpa [DeclaredParameter.annotated, same] using typed
      cases given
      exact known
    · rw [annotated_other same] at typed
      exact others.parameters p member same b typed
  · exact others.result b result

theorem not_evaluates_annotated (own : ∃ p ∈ f.parameters, p.name = changed) (unknown : names s = none) :
    (f.annotated sees changed (.text s)).evaluates names = false := by
  obtain ⟨p, member, same⟩ := own
  refine List.all_eq_false.mpr ⟨.text s, ?_, by simp [TypeHint.evaluate?, unknown]⟩
  have typed : (p.annotated changed (.text s)).type = some (.text s) := by
    simp [DeclaredParameter.annotated, same]
  exact List.mem_append_left _ (List.mem_filterMap.mpr ⟨_, List.mem_map_of_mem member, typed⟩)

theorem ownHint_annotated {name : String} (other : name ≠ changed) :
    (f.annotated sees changed a).ownHint name = f.ownHint name := by
  rw [ownHint, annotated, find?_map_annotated (fun shown _ => shown = name), ownHint]
  cases found : f.parameters.find? (fun p => decide (p.name = name)) with
  | none => rfl
  | some p =>
    have same : p.name = name := by simpa using List.find?_some found
    have apart : p.name ≠ changed := same ▸ other
    simp [annotated_other apart]

theorem arguments_alike (follows : FollowsDeclaration sees f.parameters changed) (a b : TypeHint) :
    List.Forall₂ (AlikeBut (Draws f.parameters changed)) (f.annotated sees changed a).arguments
      (f.annotated sees changed b).arguments := by
  have alike : List.Forall₂ (AlikeBut (Draws f.parameters changed)) (f.annotated sees changed a).signature
      (f.annotated sees changed b).signature := follows a b
  unfold arguments
  generalize (f.annotated sees changed a).signature = l at alike ⊢
  generalize (f.annotated sees changed b).signature = u at alike ⊢
  cases alike with
  | nil => exact .nil
  | cons first rest =>
    simp only [first.isPositional]
    split
    · exact rest
    · exact .cons first rest

theorem OthersEvaluate.own (others : f.OthersEvaluate names changed) {name : String} (other : name ≠ changed)
    {b : TypeHint} (given : f.ownHint name = some b) : (b.evaluate? names).isSome := by
  obtain ⟨p, found, typed⟩ := Option.bind_eq_some_iff.mp given
  have same : p.name = name := by simpa using List.find?_some found
  exact others.parameters p (List.mem_of_find?_eq_some found) (same ▸ other) b typed

theorem annotationOf_eq (f : Function) (names : Names) (p : DeclaredParameter) :
    f.annotationOf names p = ((f.ownHint p.name).map (f.evaluated names)).or p.type := by
  rw [annotationOf, ownHint]
  split <;> simp [*]

theorem map_evaluated (all : f.evaluates names = true) (b : Option TypeHint) :
    b.map (f.evaluated names) = b.map fun b => (b.evaluate? names).getD b := by
  cases b <;> simp [evaluated, all]

theorem map_unevaluated (failed : f.evaluates names = false) (b : Option TypeHint) :
    b.map (f.evaluated names) = b := by
  cases b <;> simp [evaluated, failed]

/-- An annotation with a value is recorded as this value, or as it is written. -/
theorem reference_iff {b : Option TypeHint} (known : ∀ c ∈ b, (c.evaluate? names).isSome) :
    b.map TypeHint.reference = (b.map fun b => (b.evaluate? names).getD b).map TypeHint.reference ↔
      ∀ c ∈ b, c.ReadsAlike names := by
  cases b with
  | none => simp
  | some c => simp [TypeHint.reference_value_iff (known c rfl)]

theorem describeParameter_shares (own : ∃ p ∈ f.parameters, p.name = changed)
    (others : f.OthersEvaluate names changed) (known : (a.evaluate? names).isSome) (unknown : names s = none)
    {p q : DeclaredParameter} (alike : p.AlikeBut (Draws f.parameters changed) q) :
    f.SharesParameter names changed ((f.annotated sees changed a).describeParameter names p)
      ((f.annotated sees changed (.text s)).describeParameter names q) where
  name := alike.name
  kind := alike.kind
  default := by simp only [describeParameter, alike.default]
  type := fun apart => by
    have other : p.name ≠ changed := fun same => apart (.inl same)
    have all : (f.annotated sees changed a).evaluates names = true := evaluates_annotated others known
    have failed : (f.annotated sees changed (.text s)).evaluates names = false := not_evaluates_annotated own unknown
    simp only [describeParameter, annotationOf_eq, alike.name, ownHint_annotated other, map_evaluated all,
      map_unevaluated failed, alike.type apart]
    cases given : f.ownHint p.name with
    | none => simp
    | some b =>
      have value : ∀ c ∈ some b, (c.evaluate? names).isSome := fun c same => others.own other (given.trans same)
      exact reference_iff value

theorem deferred_iff (kind : FunctionKind) (r : Option TypeHint) :
    kind.convention r = .deferred ↔ kind = .coroutine := by
  cases kind with
  | coroutine => simp [FunctionKind.convention]
  | asyncGenerator => simp [FunctionKind.convention]
  | plain | generator => by_cases stream : r.any TypeHint.isAsyncStream <;> simp [FunctionKind.convention, stream]

/-- A text is no stream, whatever it stands for. -/
theorem convention_iff (known : ∀ b ∈ f.result, (b.evaluate? names).isSome) :
    f.callKind.convention f.result =
        f.callKind.convention (f.result.map fun b => (b.evaluate? names).getD b) ↔
      ¬ f.StreamsByText names := by
  have kept {kind : FunctionKind} (other : ¬ (kind = .plain ∨ kind = .generator)) (r : Option TypeHint) :
      kind.convention r = kind.convention none := by
    cases kind <;> first | rfl | simp at other
  by_cases byResult : f.callKind = .plain ∨ f.callKind = .generator
  · have convention (r : Option TypeHint) :
        f.callKind.convention r = if r.any TypeHint.isAsyncStream then .streaming else .direct := by
      rcases byResult with kind | kind <;> rw [kind] <;> rfl
    rw [convention, convention]
    cases result : f.result with
    | none => exact iff_of_true rfl fun ⟨_, _, _, given, _⟩ => by simp [result] at given
    | some b =>
      cases b with
      | text t =>
        obtain ⟨c, meaning⟩ := Option.isSome_iff_exists.mp (known (.text t) result)
        have streams : f.StreamsByText names ↔ c.isAsyncStream := by
          refine ⟨fun ⟨_, u, d, given, other, stream⟩ => ?_, fun stream => ⟨byResult, t, c, result, meaning, stream⟩⟩
          cases result.symm.trans given
          cases meaning.symm.trans other
          exact stream
        have silent : (TypeHint.text t).isAsyncStream = false := rfl
        rw [streams]
        cases stream : c.isAsyncStream <;> simp [meaning, stream, silent]
      | _ => exact iff_of_true rfl fun ⟨_, _, _, given, _⟩ => by simp [result] at given
  · rw [kept byResult, kept byResult (f.result.map _)]
    exact iff_of_true rfl fun streams => byResult streams.kind

/-- A text without a value in the place of one annotation turns the evaluation of all others off. -/
theorem unevaluated_description (follows : FollowsDeclaration sees f.parameters changed)
    (own : ∃ p ∈ f.parameters, p.name = changed) (others : f.OthersEvaluate names changed)
    (known : (a.evaluate? names).isSome) (unknown : names s = none) (qualifiedName : String)
    (inherited : Option String) : ∃ m n : Method,
      (f.annotated sees changed a).describe names qualifiedName inherited = { records := [], outcome := .ok m } ∧
      (f.annotated sees changed (.text s)).describe names qualifiedName inherited =
        { records := [unevaluated qualifiedName], outcome := .ok n } ∧
      f.SharesMethod names changed m n := by
  have all : (f.annotated sees changed a).evaluates names = true := evaluates_annotated others known
  have failed : (f.annotated sees changed (.text s)).evaluates names = false := not_evaluates_annotated own unknown
  refine ⟨_, _, by simp only [describe, all]; rfl, by simp only [describe, failed]; rfl, ?_⟩
  have first : (f.annotated sees changed a).result.map ((f.annotated sees changed a).evaluated names) =
      f.result.map fun b => (b.evaluate? names).getD b := map_evaluated all f.result
  have second : (f.annotated sees changed (.text s)).result.map ((f.annotated sees changed (.text s)).evaluated names) =
      f.result := map_unevaluated failed f.result
  refine ⟨rfl, ?_, rfl, rfl, ?_, ?_, ?_⟩
  · simp only [deferred_iff]
    rfl
  · simp only [first, second]
    exact convention_iff others.result
  · simp only [first, second]
    exact reference_iff others.result
  · simp only [List.forall₂_map_left_iff, List.forall₂_map_right_iff]
    exact (arguments_alike follows a (.text s)).imp fun p q alike =>
      describeParameter_shares own others known unknown alike

def integer : TypeHint := .cls { name := "int", module := "builtins" }

def rowsMeaning : Names := fun s =>
  if s = "AsyncIterator[int]" then
    some (.applied .direct (.cls { name := "AsyncIterator", module := "collections.abc" }) [integer])
  else if s = "Limit" then some (.cls { name := "Limit", module := "app.models" })
  else none

/-- A function of rows from a source. Its other annotations are texts that have a meaning. -/
def rows : Function where
  name := "rows"
  parameters := [{ name := "self" }, { name := "source" }, { name := "limit", type := some (.text "Limit") }]
  result := some (.text "AsyncIterator[int]")

/-- A function that passes its arguments on, all of which another parameter collects there. -/
def passAll : Function where
  name := "passAll"
  parameters := [{ name := "self" }, { name := "args", kind := .extraPositional }]

def passAllSees (own : List DeclaredParameter) : List DeclaredParameter :=
  forwarding own [{ name := "rest", kind := .extraPositional }]

/-- The signature of the rows is what they declare, and the other one is found in part where the arguments go. -/
theorem rows_unevaluated :
    (FollowsDeclaration id rows.parameters "source" ∧ ∃ m n : Method,
      (rows.annotated id "source" integer).describe rowsMeaning "Store.rows" none =
        { records := [], outcome := .ok m } ∧
      (rows.annotated id "source" (.text "Source")).describe rowsMeaning "Store.rows" none =
        { records := [unevaluated "Store.rows"], outcome := .ok n } ∧
      rows.SharesMethod rowsMeaning "source" m n) ∧
    FollowsDeclaration passAllSees passAll.parameters "args" ∧ ∃ m n : Method,
      (passAll.annotated passAllSees "args" integer).describe rowsMeaning "Store.passAll" none =
        { records := [], outcome := .ok m } ∧
      (passAll.annotated passAllSees "args" (.text "Source")).describe rowsMeaning "Store.passAll" none =
        { records := [unevaluated "Store.passAll"], outcome := .ok n } ∧
      passAll.SharesMethod rowsMeaning "args" m n := by
  have declared := id_follows rows.parameters "source"
  have passed : FollowsDeclaration passAllSees passAll.parameters "args" := forwarding_follows _ _ _
  refine ⟨⟨declared, ?_⟩, passed, ?_⟩
  · exact unevaluated_description declared ⟨{ name := "source" }, by simp [rows], rfl⟩
      { parameters := by simp [rows, rowsMeaning, TypeHint.evaluate?]
        result := by simp [rows, rowsMeaning, TypeHint.evaluate?] }
      rfl (by decide) "Store.rows" none
  · exact unevaluated_description passed ⟨{ name := "args", kind := .extraPositional }, by simp [passAll], rfl⟩
      { parameters := by simp [passAll]
        result := by simp [passAll] }
      rfl (by decide) "Store.passAll" none

theorem passAll_arguments (a : TypeHint) : (passAll.annotated passAllSees "args" a).arguments =
    [{ name := "rest", kind := .extraPositional, type := some a }] := by
  simp [arguments, passAll, passAllSees, annotated, forwarding, List.mergeSort, DeclaredParameter.annotated, behind,
    isSurplus, isPositional, agreed, rank, reachedBy]

/-- Without the source the rows are no stream, and their type and that of the limit are texts. What collects the
arguments that another parameter collects has its annotation. -/
theorem rows_not_streamed :
    (∃ m n : Method,
      (rows.annotated id "source" integer).describe rowsMeaning "Store.rows" none =
        { records := [], outcome := .ok m } ∧
      (rows.annotated id "source" (.text "Source")).describe rowsMeaning "Store.rows" none =
        { records := [unevaluated "Store.rows"], outcome := .ok n } ∧
      m.convention = .streaming ∧ n.convention = .direct ∧ n.result ≠ m.result ∧
      (m.parameters.map (·.name) = ["source", "limit"] ∧ n.parameters.map (·.name) = ["source", "limit"]) ∧
      n.parameters[1]?.map (·.type) ≠ m.parameters[1]?.map (·.type)) ∧
    ∃ m n : Method,
      (passAll.annotated passAllSees "args" integer).describe rowsMeaning "Store.passAll" none =
        { records := [], outcome := .ok m } ∧
      (passAll.annotated passAllSees "args" (.text "Source")).describe rowsMeaning "Store.passAll" none =
        { records := [unevaluated "Store.passAll"], outcome := .ok n } ∧
      m.parameters.map (·.name) = ["rest"] ∧ n.parameters.map (·.name) = ["rest"] ∧
      n.parameters.map (·.type) ≠ m.parameters.map (·.type) := by
  refine ⟨⟨_, _, rfl, rfl, by decide, by decide, by decide, by decide, by decide⟩, _, _, rfl, rfl, ?_⟩
  simp only [passAll_arguments]
  decide

end Function
end SyncFacade
