import SyncFacade.Function
import SyncFacade.Generation

/-! Which functions are taken for streams, and what their wrappers show of the items. The annotation itself decides
the first, before it is recorded; the second is read off the recorded type, by the name it has there. -/
namespace SyncFacade

open TypeHint

/-- An annotation of an asynchronous iterator, and its arguments: one of three classes or its alias in the typing
library, alone or applied. -/
inductive AsyncStream : TypeHint → List TypeHint → Prop where
  | cls {name : String} (known : name ∈ ["AsyncIterator", "AsyncIterable", "AsyncGenerator"]) :
      AsyncStream (.cls { name, module := "collections.abc" }) []
  | ofAlias {name : String} (known : name ∈ ["AsyncIterator", "AsyncIterable", "AsyncGenerator"]) :
      AsyncStream (.alias name) []
  | applied {name : String} (known : name ∈ ["AsyncIterator", "AsyncIterable", "AsyncGenerator"]) (form : Application)
      (arguments : List TypeHint) :
      AsyncStream (.applied form (.cls { name, module := "collections.abc" }) arguments) arguments

namespace TypeHint

theorem argumentReferences_eq_map (as : List TypeHint) : argumentReferences as = as.map argumentReference := by
  induction as with
  | nil => rfl
  | cons a rest ih => rw [argumentReferences, ih, List.map_cons, argumentReference]

theorem mem_asyncStreams_iff {c : NamedClass} : c ∈ asyncStreams ↔
    ∃ name ∈ ["AsyncIterator", "AsyncIterable", "AsyncGenerator"], c = { name, module := "collections.abc" } := by
  simp [asyncStreams]

/-- Of all aliases these three stand for classes that are iterated over asynchronously. -/
theorem any_aliasClass?_iff {name : String} : (aliasClass? name).any asyncStreams.contains = true ↔
    name ∈ ["AsyncIterator", "AsyncIterable", "AsyncGenerator"] := by
  constructor
  · intro stream
    obtain ⟨c, found, among⟩ := (Option.any_eq_true _ _).mp stream
    obtain ⟨⟨shown, module⟩, listed, rfl⟩ := Option.map_eq_some_iff.mp found
    obtain ⟨before, after, split, -⟩ := List.lookup_eq_some_iff.mp listed
    have member : (name, shown, module) ∈ aliases := split ▸ List.mem_append_right before List.mem_cons_self
    have streams : ∀ e ∈ aliases, asyncStreams.contains { name := e.2.1, module := e.2.2 } →
        e.1 ∈ ["AsyncIterator", "AsyncIterable", "AsyncGenerator"] := by decide
    exact streams _ member among
  · simp only [List.mem_cons, List.not_mem_nil, or_false]
    rintro (rfl | rfl | rfl) <;> decide

/-- The reader takes exactly these annotations for streams. -/
theorem isAsyncStream_iff {a : TypeHint} : a.isAsyncStream = true ↔ ∃ arguments, AsyncStream a arguments := by
  constructor
  · intro stream
    unfold isAsyncStream at stream
    split at stream
    · obtain ⟨name, known, rfl⟩ := mem_asyncStreams_iff.mp (List.contains_iff_mem.mp stream)
      exact ⟨[], .cls known⟩
    · exact ⟨[], .ofAlias (any_aliasClass?_iff.mp stream)⟩
    · obtain ⟨name, known, rfl⟩ := mem_asyncStreams_iff.mp (List.contains_iff_mem.mp stream)
      exact ⟨_, .applied known _ _⟩
    · contradiction
  · rintro ⟨arguments, stream⟩
    cases stream with
    | cls known => exact List.contains_iff_mem.mpr (mem_asyncStreams_iff.mpr ⟨_, known, rfl⟩)
    | ofAlias known => exact any_aliasClass?_iff.mpr known
    | applied known form => exact List.contains_iff_mem.mpr (mem_asyncStreams_iff.mpr ⟨_, known, rfl⟩)

end TypeHint

namespace AsyncStream

variable {a : TypeHint} {arguments : List TypeHint}

/-- However a stream is annotated, what is recorded has the name of its class and the references of its arguments. -/
theorem reference_eq (stream : AsyncStream a arguments) : ∃ name ∈ asyncIteratorNames,
    a.reference = { name, module := some "collections.abc", arguments := arguments.map argumentReference } := by
  cases stream with
  | @cls name known => exact ⟨name, known, rfl⟩
  | @ofAlias name known =>
    refine ⟨name, known, ?_⟩
    simp only [List.mem_cons, List.not_mem_nil, or_false] at known
    obtain rfl | rfl | rfl := known <;> rfl
  | @applied name known form =>
    refine ⟨name, known, ?_⟩
    have other : isCallable (.cls { name, module := "collections.abc" }) = false := by
      simp only [List.mem_cons, List.not_mem_nil, or_false] at known
      obtain rfl | rfl | rfl := known <;> rfl
    rw [reference, referenceAt.eq_def]
    simp only [other, argumentReferences_eq_map]
    rfl

/-- The items of a stream are of the type that is its first argument. -/
theorem streamElement_reference (stream : AsyncStream a arguments) :
    streamElement (some a.reference) = arguments.head?.map argumentReference := by
  obtain ⟨name, known, recorded⟩ := stream.reference_eq
  have among : asyncIteratorNames.contains name = true := List.contains_iff_mem.mpr known
  rw [recorded, streamElement, Option.bind_some, if_pos among, List.head?_map]

end AsyncStream

theorem FunctionKind.convention_streaming_iff {kind : FunctionKind} {result : Option TypeHint} :
    kind.convention result = .streaming ↔ kind ≠ .coroutine ∧
      (kind = .asyncGenerator ∨ ∃ a arguments, result = some a ∧ AsyncStream a arguments) := by
  have annotated : result.any isAsyncStream = true ↔ ∃ a arguments, result = some a ∧ AsyncStream a arguments := by
    simp only [Option.any_eq_true, isAsyncStream_iff, exists_and_left]
  cases kind with
  | coroutine => simp [convention]
  | asyncGenerator => simp [convention]
  | plain | generator => simp only [convention, ← annotated]; simp

namespace Function

/-- What the wrapper of a method shows of the eventual result or of the stream that it hands over. -/
structure ShowsResult (f : Function) (result : Option TypeHint) (m : Method) : Prop where
  convention : m.convention = .streaming ↔ f.callKind ≠ .coroutine ∧
    (f.callKind = .asyncGenerator ∨ ∃ a arguments, result = some a ∧ AsyncStream a arguments)
  deferred : f.callKind = .coroutine → m.convention = .deferred ∧
    m.exposed.result = some (deferredWrapper.applied (result.map TypeHint.reference).toList)
  streaming : f.callKind ≠ .coroutine → ∀ a arguments, result = some a → AsyncStream a arguments →
    m.exposed.result = some (streamWrapper.applied (arguments.head?.map argumentReference).toList)
  unannotated : f.callKind = .asyncGenerator → result = none → m.exposed.result = some streamWrapper

/-- Every function is described. A coroutine is awaited whatever it gives, and what else is annotated as a stream or
is one without an annotation is a stream, whose items are shown with the type that the annotation has for them. -/
theorem describe_shows_result (f : Function) (names : Names) (qualifiedName : String) (inherited : Option String) :
    ∃ records m, f.describe names qualifiedName inherited = ⟨records, .ok m⟩ ∧
      f.ShowsResult (f.result.map (f.evaluated names)) m := by
  refine ⟨_, _, rfl, FunctionKind.convention_streaming_iff, ?_, ?_, ?_⟩
  · intro coroutine
    have awaited : f.callKind.convention (f.result.map (f.evaluated names)) = .deferred := by rw [coroutine]; rfl
    exact ⟨awaited, by rw [Method.exposed, Method.exposedResult, awaited]⟩
  · intro other a arguments resolved stream
    have streams : f.callKind.convention (f.result.map (f.evaluated names)) = .streaming :=
      FunctionKind.convention_streaming_iff.mpr ⟨other, .inr ⟨a, arguments, resolved, stream⟩⟩
    rw [Method.exposed, Method.exposedResult, streams, resolved, Option.map_some, stream.streamElement_reference]
  · intro generator unannotated
    have streams : f.callKind.convention (f.result.map (f.evaluated names)) = .streaming :=
      FunctionKind.convention_streaming_iff.mpr ⟨by rw [generator]; nofun, .inl generator⟩
    rw [Method.exposed, Method.exposedResult, streams, unannotated]
    rfl

end Function
end SyncFacade
