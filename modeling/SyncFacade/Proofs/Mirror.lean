import SyncFacade.Proofs.Source.Layout
import SyncFacade.Proofs.Wrapping

/-! The interface that is made from a class beside the class's wrapper. They are made apart, the one without
marks and bodies, the other with both, and written by different rules. Still every signature of the interface
stands in the wrapper, letter for letter, and every method of the wrapper is marked as overriding. -/
namespace SyncFacade

theorem itemType_unique {result a b : Option TypeRef} (first : ItemType result a)
    (second : ItemType result b) : a = b :=
  Option.ext fun t => (first t).trans (second t).symm

theorem WrapsMethod.result {context : Context} {m w : Method} (wraps : WrapsMethod context m w) :
    w.result = m.exposedResult := by
  obtain ⟨body, _, adapts⟩ := wraps.adapts
  generalize w.result = result at adapts
  cases adapts with
  | direct convention => simp only [Method.exposedResult, convention]
  | deferred _ convention => simp only [Method.exposedResult, convention]; rfl
  | streaming _ item convention _ known =>
    rw [itemType_unique known (streamElement_itemType m.result)]
    simp only [Method.exposedResult, convention]
    rfl

theorem WrapsMethod.header {context : Context} {m w : Method} (wraps : WrapsMethod context m w)
    (target : Option String) : w.header target = m.declared.header target := by
  have result : m.declared.result = m.exposedResult := rfl
  simp only [Method.header, wraps.name, wraps.parameters, wraps.result, result]
  rfl

theorem exists_wrapped {c : ClassInfo} {context : Context}
    (runnable : ∀ m ∈ c.methods, Runnable context m) :
    ∃ w, (c.compile context).outcome = .ok w ∧ WrapsClass c context w := by
  have outcome := compile_wrapped runnable
  generalize c.compile context = run at outcome
  cases outcome with
  | refused before after m methods _ fails unscoped =>
    rcases runnable m (by simp [methods]) with direct | ⟨p, provided⟩
    · exact absurd direct fails
    · rw [unscoped] at provided
      contradiction
  | wrapped w _ wraps => exact ⟨w, rfl, wraps⟩

theorem sameDeclaration_declared (m : Method) : SameDeclaration m m.declared :=
  ⟨rfl, List.forall₂_same.mpr fun _ _ => ⟨rfl, rfl, rfl⟩⟩

theorem WrapsMethod.marked {d : ClassInfo} {context : Context} {t : TypeRef} {m w : Method}
    (derived : context.interface = some (d.deriveInterface t)) (member : m ∈ d.methods)
    (wraps : WrapsMethod context m w) : w.overrides = true :=
  wraps.overrides.mpr
    (Or.inr ⟨_, derived, m.declared, List.mem_map_of_mem member, sameDeclaration_declared m⟩)

/-- The line of a method in an interface, and its lines in a wrapper: these have the mark first, and then
the signature alone. -/
def Mirrors (line : String) (block : List String) : Prop :=
  ∃ signature rest, "    def ".toList <+: signature.toList ∧ line = signature ++ " ..." ∧
    block = "    @typing_extensions.override" :: signature :: rest

theorem WrapsMethod.mirrors {d : ClassInfo} {context : Context} {t : TypeRef} {m w : Method}
    (derived : context.interface = some (d.deriveInterface t)) (member : m ∈ d.methods)
    (wraps : WrapsMethod context m w) (field : DelegateField) (target : Option String)
    (aliases : Aliases) :
    ∃ block, w.lines field target aliases = .ok block ∧
      Mirrors (indent ++ m.declared.header target ++ " ...") block := by
  obtain ⟨body, present, _⟩ := wraps.adapts
  refine ⟨_, w.lines_ok present field target aliases, indent ++ m.declared.header target,
    docRows indent2 w.doc ++ [indent2 ++ "return " ++ body.render field aliases], ?_, rfl, ?_⟩
  · simp only [Method.header, String.toList_append, List.append_assoc]
    exact ⟨_, rfl⟩
  · rw [wraps.header target, Method.decorators, wraps.marked derived member]
    rfl

/-- The interface made from a class and the wrapper that implements it have the same signatures: the wrapper
is made whenever there is a scope or none is needed, and what stands for the methods in the two texts
agrees line by line. -/
theorem interface_mirrors_wrapper {d : ClassInfo} {context : Context} {t : TypeRef}
    (derived : context.interface = some (d.deriveInterface t))
    (runnable : context.scope ≠ none ∨ ∀ m ∈ d.methods, m.convention = .direct)
    (target : Option String) (aliases : Aliases) (doc : Option String) :
    ∃ w blocks, (d.compile context).outcome = .ok w ∧
      w.methods.length = ((d.deriveInterface t).interface doc).methods.length ∧
      w.lines target aliases = .ok (w.opening target ++ blocks.flatMap fun block => "" :: block) ∧
      ((d.deriveInterface t).interface doc).lines target =
        .ok (((d.deriveInterface t).interface doc).opening target ++
          ((d.deriveInterface t).interface doc).methodLines target) ∧
      List.Forall₂ (fun m block => m.lines w.delegate target aliases = .ok block) w.methods blocks ∧
      List.Forall₂ Mirrors (((d.deriveInterface t).interface doc).methodLines target) blocks := by
  have ready : ∀ m ∈ d.methods, Runnable context m := by
    intro m member
    rcases runnable with provided | direct
    · exact Or.inr (Option.ne_none_iff_exists'.mp provided)
    · exact Or.inl (direct m member)
  obtain ⟨w, compiled, wraps⟩ := exists_wrapped ready
  have printed : ∃ blocks,
      List.Forall₂ (fun n block => n.lines w.delegate target aliases = .ok block) w.methods blocks ∧
      List.Forall₂ (fun m block => Mirrors (indent ++ m.declared.header target ++ " ...") block)
        d.methods blocks :=
    exists_third wraps.methods fun m member n method =>
      method.mirrors derived member w.delegate target aliases
  obtain ⟨blocks, written, mirrored⟩ := printed
  have sameCount : w.methods.length = ((d.deriveInterface t).interface doc).methods.length := by
    rw [← wraps.methods.length_eq]
    exact (List.length_map _).symm
  have lines : w.lines target aliases = .ok (w.opening target ++ blocks.flatMap fun block => "" :: block) := by
    rw [w.lines_eq, mapM_ok_iff.mpr written]
    rfl
  have declared : List.Forall₂ Mirrors (((d.deriveInterface t).interface doc).methodLines target)
      blocks := by
    rw [Interface.methodLines, List.forall₂_map_left_iff]
    exact List.forall₂_map_left_iff.mpr mirrored
  exact ⟨w, blocks, compiled, sameCount, lines, Interface.lines_eq _ _, written, declared⟩

def streamingReader : ClassInfo :=
  { name := "Reader", module := some "app.reader"
    methods := [
      { name := "open", parameters := [{ name := "path", default := some "'a'" }] },
      { name := "rows", parameters := [{ name := "limit", kind := .keywordOnly }], convention := .streaming
        result := some { name := "AsyncIterator", module := some "collections.abc",
                         arguments := [{ name := "Row", module := some "app.rows" }] } }] }

def readerInterface : TypeRef := { name := "ReaderInterface", module := some "app.wrappers" }

def readerContext : Context :=
  { wrapperName := "ReaderWrapper", module := some "app.wrappers", scope := some { name := "scope" }
    interface := some (streamingReader.deriveInterface readerInterface) }

theorem reader_methodLines :
    ((streamingReader.deriveInterface readerInterface).interface none).methodLines
        (some "app.wrappers") =
      ["    def open(self, path = 'a'): ...",
        "    def rows(self, *, limit) -> suspendwrap.runtime.StreamWrapper[app.rows.Row]: ..."] := by
  decide

/-- A direct method and a stream of rows, in both texts. -/
theorem reader_mirrored :
    readerContext.interface = some (streamingReader.deriveInterface readerInterface) ∧
    readerContext.scope ≠ none ∧
    ∃ w blocks, (streamingReader.compile readerContext).outcome = .ok w ∧
      w.lines (some "app.wrappers")
          { deferredWrapper := "_DeferredWrapper", streamWrapper := "_StreamWrapper" } =
        .ok (w.opening (some "app.wrappers") ++ blocks.flatMap fun block => "" :: block) ∧
      List.Forall₂ Mirrors
        ["    def open(self, path = 'a'): ...",
          "    def rows(self, *, limit) -> suspendwrap.runtime.StreamWrapper[app.rows.Row]: ..."] blocks := by
  have derived : readerContext.interface = some (streamingReader.deriveInterface readerInterface) := rfl
  have provided : readerContext.scope ≠ none := by decide
  obtain ⟨w, blocks, compiled, _, lines, _, _, mirrored⟩ :=
    interface_mirrors_wrapper derived (Or.inl provided) (some "app.wrappers")
      { deferredWrapper := "_DeferredWrapper", streamWrapper := "_StreamWrapper" } none
  rw [reader_methodLines] at mirrored
  exact ⟨derived, provided, w, blocks, compiled, lines, mirrored⟩

end SyncFacade
