import SyncFacade.Generation
import SyncFacade.Proofs.Sequencing
import Mathlib.Data.List.Forall2

/-! What wrapping a class gives, said without the steps that make it: which runs are refused and what
they leave in the log, and what every method of a wrapper keeps and changes. The two outcomes exclude
each other and leave no third one. -/
namespace SyncFacade

/-- What an interface can tell of a method: its name, and its parameters up to their defaults. -/
def SameDeclaration (m n : Method) : Prop :=
  m.name = n.name ∧ List.Forall₂ (fun p q : Parameter => p.name = q.name ∧ p.type = q.type ∧
    p.kind = q.kind) m.parameters n.parameters

/-- The call of the wrapped instance with a method's own parameters. -/
def ownCall (m : Method) : Call :=
  { receiver := "wrapped", method := m.name, arguments := m.parameters }

/-- The type of the items of a stream is known from an asynchronous iterator's first argument. -/
def ItemType (result item : Option TypeRef) : Prop :=
  ∀ t, item = some t ↔ ∃ iterator rest, result = some iterator ∧
    iterator.name ∈ ["AsyncIterator", "AsyncIterable", "AsyncGenerator"] ∧
    iterator.arguments = t :: rest

/-- How a method's body and result type are changed. Only a direct method needs no scope. -/
inductive Adapts (scope : Option ScopeProvider) (m : Method) : Body → Option TypeRef → Prop where
  | direct : m.convention = .direct → Adapts scope m (.direct (ownCall m)) m.result
  | deferred (p : ScopeProvider) : m.convention = .deferred → scope = some p →
      Adapts scope m (.deferred (some p.name) (ownCall m))
        (some { name := "DeferredWrapper", module := some "suspendwrap.runtime"
                arguments := m.result.toList })
  | streaming (p : ScopeProvider) (item : Option TypeRef) : m.convention = .streaming →
      scope = some p → ItemType m.result item →
      Adapts scope m (.stream (some p.name) (ownCall m))
        (some { name := "StreamWrapper", module := some "suspendwrap.runtime"
                arguments := item.toList })

structure WrapsMethod (context : Context) (m w : Method) : Prop where
  name : w.name = m.name
  parameters : w.parameters = m.parameters
  doc : w.doc = m.doc
  convention : w.convention = .direct
  suspends : w.suspends = false
  overrides : w.overrides = true ↔ m.overrides = true ∨
    ∃ i, context.interface = some i ∧ ∃ n ∈ i.methods, SameDeclaration m n
  adapts : ∃ body, w.body = some body ∧ Adapts context.scope m body w.result

structure WrapsClass (c : ClassInfo) (context : Context) (w : Wrapper) : Prop where
  name : w.name = context.wrapperName
  module : w.module = context.module
  methods : List.Forall₂ (WrapsMethod context) c.methods w.methods
  supertypes : w.supertypes =
    wrapperSupertypes c.supertypes context.substitution context.interface
  delegate : w.delegate = { name := "wrapped", type := c.type, isPrivate := true }
  construction : w.constructor =
    { parameters := [{ name := "wrapped", type := some c.type }], assigns := ["wrapped"] }
  doc : w.doc = some ("Wrapper for " ++ c.type.qualifiedName ++ " with non-suspending methods")

def compilingRecord (c : ClassInfo) (context : Context) : Record :=
  { level := .debug, channel := .compiler
    message := "Compiling wrapper " ++ context.wrapperName ++ " for " ++ c.type.qualifiedName }

def adaptedRecord (c : ClassInfo) (m : Method) : Record :=
  { level := .debug, channel := .adapter
    message := "Adapted " ++ c.name ++ "." ++ m.name ++ " (" ++ m.convention.word ++ ")" }

/-- A run is refused at the first method that needs a scope when there is none; the log ends with the
method before it. Any other run gives a wrapper. -/
inductive CompileOutcome (c : ClassInfo) (context : Context) :
    Logged GenerationError Wrapper → Prop where
  | refused (before after : List Method) (m : Method) : c.methods = before ++ m :: after →
      (∀ b ∈ before, b.convention = .direct) → m.convention ≠ .direct → context.scope = none →
      CompileOutcome c context
        ⟨compilingRecord c context :: before.map (adaptedRecord c),
          .error (.missingScope c.name m.name)⟩
  | wrapped (w : Wrapper) : (context.scope = none → ∀ m ∈ c.methods, m.convention = .direct) →
      WrapsClass c context w →
      CompileOutcome c context
        ⟨compilingRecord c context :: c.methods.map (adaptedRecord c), .ok w⟩

theorem bare_eq_iff {p q : Parameter} :
    p.bare = q.bare ↔ p.name = q.name ∧ p.type = q.type ∧ p.kind = q.kind := by
  cases p
  cases q
  simp [Parameter.bare]

theorem sameSignature_iff {m n : Method} : m.sameSignature n = true ↔ SameDeclaration m n := by
  simp only [Method.sameSignature, Bool.and_eq_true, decide_eq_true_eq, SameDeclaration]
  rw [← List.forall₂_eq_eq_eq, List.forall₂_map_left_iff, List.forall₂_map_right_iff]
  simp only [bare_eq_iff]

theorem implements_iff {m : Method} {interface : Option InterfaceBinding} :
    m.implements interface = true ↔
      ∃ i, interface = some i ∧ ∃ n ∈ i.methods, SameDeclaration m n := by
  cases interface with
  | none => simp [Method.implements]
  | some i => simp [Method.implements, sameSignature_iff]

theorem streamElement_itemType (result : Option TypeRef) : ItemType result (streamElement result) := by
  intro t
  cases result with
  | none => simp [streamElement]
  | some iterator =>
    by_cases known : iterator.name ∈ asyncIteratorNames
    · have item : streamElement (some iterator) = iterator.arguments.head? := by
        simp [streamElement, known]
      rw [item, List.head?_eq_some_iff]
      constructor
      · rintro ⟨rest, listed⟩
        exact ⟨iterator, rest, rfl, known, listed⟩
      · rintro ⟨_, rest, same, _, listed⟩
        cases same
        exact ⟨rest, listed⟩
    · have item : streamElement (some iterator) = none := by simp [streamElement, known]
      rw [item]
      constructor
      · intro impossible
        contradiction
      · rintro ⟨_, _, same, named, _⟩
        cases same
        exact absurd named known

/-- A method that can run where it is: at once, or in the scope that is provided. -/
def Runnable (context : Context) (m : Method) : Prop :=
  m.convention = .direct ∨ ∃ p, context.scope = some p

theorem adapts_delegatingBody {context : Context} {m : Method} (runnable : Runnable context m) :
    Adapts context.scope m (m.delegatingBody (context.scope.map ScopeProvider.name))
      m.exposedResult := by
  cases convention : m.convention with
  | direct =>
    simp only [Method.delegatingBody, Method.exposedResult, convention]
    exact .direct convention
  | deferred =>
    obtain direct | ⟨p, provided⟩ := runnable
    · rw [convention] at direct
      contradiction
    · simp only [Method.delegatingBody, Method.exposedResult, convention, provided, Option.map_some]
      exact .deferred p convention rfl
  | streaming =>
    obtain direct | ⟨p, provided⟩ := runnable
    · rw [convention] at direct
      contradiction
    · simp only [Method.delegatingBody, Method.exposedResult, convention, provided, Option.map_some]
      exact .streaming p _ convention rfl (streamElement_itemType m.result)

theorem wrapsMethod_adapted {context : Context} {m : Method} (runnable : Runnable context m) :
    WrapsMethod context m
      (m.adapted (context.scope.map ScopeProvider.name) context.interface delegateName) where
  name := rfl
  parameters := rfl
  doc := rfl
  convention := rfl
  suspends := rfl
  overrides := by
    have marked : m.exposed.implements context.interface = true ↔
        ∃ i, context.interface = some i ∧ ∃ n ∈ i.methods, SameDeclaration m n := implements_iff
    simp only [Method.adapted, Bool.or_eq_true, marked]
  adapts := ⟨_, rfl, adapts_delegatingBody runnable⟩

theorem adapt_runnable {context : Context} {m : Method} (c : ClassInfo)
    (runnable : Runnable context m) :
    m.adapt context.scope context.interface c.name =
      ⟨[adaptedRecord c m],
        .ok (m.adapted (context.scope.map ScopeProvider.name) context.interface delegateName)⟩ := by
  have allowed : ¬ (m.convention ≠ .direct ∧ context.scope = none) := by
    rintro ⟨indirect, unscoped⟩
    obtain direct | ⟨p, provided⟩ := runnable
    · exact indirect direct
    · rw [unscoped] at provided
      contradiction
  simp only [Method.adapt, if_neg allowed]
  rfl

theorem adapt_refused {context : Context} {m : Method} (c : ClassInfo)
    (indirect : m.convention ≠ .direct) (unscoped : context.scope = none) :
    m.adapt context.scope context.interface c.name =
      ⟨[], .error (.missingScope c.name m.name)⟩ := by
  simp only [Method.adapt, if_pos (And.intro indirect unscoped)]
  rfl

theorem exists_first {α : Type} {l : List α} {q : α → Prop} (some_member : ∃ x ∈ l, ¬ q x) :
    ∃ before after x, l = before ++ x :: after ∧ (∀ y ∈ before, q y) ∧ ¬ q x := by
  classical
  induction l with
  | nil => simp at some_member
  | cons y rest ih =>
    by_cases holds : q y
    · have later : ∃ x ∈ rest, ¬ q x := by
        obtain ⟨x, member, fails⟩ := some_member
        rcases List.mem_cons.mp member with rfl | among
        · exact absurd holds fails
        · exact ⟨x, among, fails⟩
      obtain ⟨before, after, x, rfl, all, fails⟩ := ih later
      refine ⟨y :: before, after, x, rfl, ?_, fails⟩
      intro z member
      rcases List.mem_cons.mp member with rfl | among
      · exact holds
      · exact all z among
    · exact ⟨[], rest, y, rfl, by simp, holds⟩

theorem compile_refused {c : ClassInfo} {context : Context} (unscoped : context.scope = none)
    (indirect : ∃ m ∈ c.methods, m.convention ≠ .direct) :
    CompileOutcome c context (c.compile context) := by
  obtain ⟨before, after, m, methods, direct, fails⟩ := exists_first indirect
  have stopped := Logged.mapM_stops after
    (f := fun m : Method => m.adapt context.scope context.interface c.name)
    (fun b earlier => adapt_runnable c (Or.inl (direct b earlier)))
    (adapt_refused c fails unscoped)
  rw [← List.map_eq_flatMap] at stopped
  have run : c.compile context = ⟨compilingRecord c context :: before.map (adaptedRecord c),
      .error (.missingScope c.name m.name)⟩ := by
    simp [ClassInfo.compile, methods, stopped, bind, Logged.log, compilingRecord]
  rw [run]
  exact .refused before after m methods direct fails unscoped

theorem compile_wrapped {c : ClassInfo} {context : Context}
    (runnable : ∀ m ∈ c.methods, Runnable context m) :
    CompileOutcome c context (c.compile context) := by
  have done := Logged.mapM_succeeds
    (f := fun m : Method => m.adapt context.scope context.interface c.name)
    (fun m member => adapt_runnable c (runnable m member))
  rw [← List.map_eq_flatMap] at done
  have wrapping : List.Forall₂ (WrapsMethod context) c.methods (c.methods.map fun m =>
      m.adapted (context.scope.map ScopeProvider.name) context.interface delegateName) := by
    rw [List.forall₂_map_right_iff, List.forall₂_same]
    exact fun m member => wrapsMethod_adapted (runnable m member)
  have direct : context.scope = none → ∀ m ∈ c.methods, m.convention = .direct := by
    intro unscoped m member
    obtain direct | ⟨p, provided⟩ := runnable m member
    · exact direct
    · rw [unscoped] at provided
      contradiction
  let w : Wrapper :=
    { name := context.wrapperName
      module := context.module
      supertypes := wrapperSupertypes c.supertypes context.substitution context.interface
      methods := c.methods.map fun m =>
        m.adapted (context.scope.map ScopeProvider.name) context.interface delegateName
      delegate := { name := delegateName, type := c.type }
      constructor :=
        { parameters := [{ name := delegateName, type := some c.type }], assigns := [delegateName] }
      doc := some (wrapperDoc c.type) }
  have run : c.compile context =
      ⟨compilingRecord c context :: c.methods.map (adaptedRecord c), .ok w⟩ := by
    simp [ClassInfo.compile, done, bind, pure, Logged.log, compilingRecord, w]
  rw [run]
  exact .wrapped w direct ⟨rfl, rfl, wrapping, rfl, rfl, rfl, rfl⟩

theorem compile_gives (c : ClassInfo) (context : Context) :
    CompileOutcome c context (c.compile context) := by
  cases provided : context.scope with
  | some p => exact compile_wrapped fun m _ => Or.inr ⟨p, provided⟩
  | none =>
    by_cases indirect : ∃ m ∈ c.methods, m.convention ≠ .direct
    · exact compile_refused provided indirect
    · push Not at indirect
      exact compile_wrapped fun m member => Or.inl (indirect m member)

theorem wrapsClass_of_compile {c : ClassInfo} {context : Context} {w : Wrapper}
    (compiled : (c.compile context).outcome = .ok w) : WrapsClass c context w := by
  have outcome := compile_gives c context
  generalize c.compile context = run at compiled outcome
  cases outcome with
  | refused before after m methods direct fails unscoped => contradiction
  | wrapped v direct wraps =>
    cases compiled
    exact wraps

/-- No method of a wrapper lacks its body. -/
theorem WrapsClass.exists_body {c : ClassInfo} {context : Context} {w : Wrapper} (wraps : WrapsClass c context w) :
    ∀ n ∈ w.methods, ∃ body, n.body = some body := by
  intro n member
  obtain ⟨m, _, method⟩ := exists_related_left wraps.methods n member
  obtain ⟨body, present, _⟩ := method.adapts
  exact ⟨body, present⟩

/-- Wrapping a class is refused for want of a scope, and only where one is wanted, with the first method
that wants it named and the log up to it; in every other case it gives a wrapper of all methods. -/
theorem compile_outcome (c : ClassInfo) (context : Context) :
    CompileOutcome c context (c.compile context) ∧
      ((∃ e, (c.compile context).outcome = .error e) ↔
        context.scope = none ∧ ∃ m ∈ c.methods, m.convention ≠ .direct) := by
  have outcome := compile_gives c context
  refine ⟨outcome, ?_⟩
  generalize c.compile context = run at outcome
  cases outcome with
  | refused before after m methods _ fails unscoped =>
    have wanted : ∃ m ∈ c.methods, m.convention ≠ .direct := ⟨m, by simp [methods], fails⟩
    simp [unscoped, wanted]
  | wrapped w direct _ =>
    constructor
    · rintro ⟨e, impossible⟩
      contradiction
    · rintro ⟨unscoped, m, member, fails⟩
      exact absurd (direct unscoped m member) fails

end SyncFacade
