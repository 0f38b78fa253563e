import SyncFacade.Proofs.Alias.Capture
import SyncFacade.Proofs.Source.Fragments
import SyncFacade.Proofs.Source.Openings

/-! A scope that is imported: the path it is configured by, the one line that imports it, and the bodies that run
in it. -/
namespace SyncFacade

namespace ScopeProvider

theorem splitAtLastDot_of_not_mem {cs : List Char} (dotless : '.' ∉ cs) : splitAtLastDot cs = none := by
  induction cs with
  | nil => rfl
  | cons c cs ih =>
    obtain ⟨here, later⟩ := not_or.mp (mt List.mem_cons.mpr dotless)
    rw [splitAtLastDot, ih later]
    exact if_neg (Ne.symm here)

theorem splitAtLastDot_append {before after : List Char} (dotless : '.' ∉ after) :
    splitAtLastDot (before ++ '.' :: after) = some (before, after) := by
  induction before with
  | nil =>
    rw [List.nil_append, splitAtLastDot, splitAtLastDot_of_not_mem dotless]
    rfl
  | cons c before ih => rw [List.cons_append, splitAtLastDot, ih]

/-- The name of a scope is what follows the last dot of its path. -/
theorem ofPath_dotted (module : String) {name : String} (dotless : '.' ∉ name.toList) :
    ofPath (module ++ "." ++ name) = { name, module := some module } := by
  have spelled : (module ++ "." ++ name).toList = module.toList ++ '.' :: name.toList := by simp
  simp only [ofPath, spelled, splitAtLastDot_append dotless, String.ofList_toList]

end ScopeProvider

/-- How a line begins that imports a name of a module under another one. -/
def importing (module name : String) : String := "from " ++ module ++ " import " ++ name ++ " as "

theorem opens_aliasImport_iff {module other : String} (word : ' ' ∉ module.toList)
    (otherWord : ' ' ∉ other.toList) (name otherName localName : String) :
    Opens (importing module name) (aliasImport other otherName localName) ↔
      module = other ∧ Opens (name ++ " as ") (otherName ++ " as " ++ localName) := by
  have beginning : (importing module name).toList =
      "from ".toList ++ (module.toList ++ ' ' :: ("import ".toList ++ (name ++ " as ").toList)) := by
    simp [importing]
  have line : (aliasImport other otherName localName).toList = "from ".toList ++
      (other.toList ++ ' ' :: ("import ".toList ++ (otherName ++ " as " ++ localName).toList)) := by
    simp [aliasImport]
  rw [Opens, beginning, line, List.prefix_append_right_inj]
  constructor
  · rintro ⟨rest, same⟩
    rw [List.append_assoc, List.cons_append] at same
    have words := congrArg (Text.pieces ' ') same
    rw [Text.pieces_append_of_not_mem word, Text.pieces_append_of_not_mem otherWord] at words
    have shared := String.toList_injective (List.cons.inj words).1
    subst shared
    refine ⟨rfl, rest, ?_⟩
    simpa using same
  · rintro ⟨rfl, rest, same⟩
    exact ⟨rest, by simp [← same]⟩

/-- The line that gives a word of the future its meaning binds no name as another. -/
theorem future_opens_no_import (module name : String) :
    ¬ Opens (importing module name) "from __future__ import annotations" := by
  intro opens
  have counted := opens.sublist.count_le ' '
  have spaces : (importing module name).toList.count ' ' =
      5 + module.toList.count ' ' + name.toList.count ' ' := by
    simp only [importing, String.toList_append, List.count_append]
    have first : "from ".toList.count ' ' = 1 := by decide
    have second : " import ".toList.count ' ' = 2 := by decide
    have third : " as ".toList.count ' ' = 2 := by decide
    omega
  have line : "from __future__ import annotations".toList.count ' ' = 3 := by decide
  omega

section Module

variable {target : Option String} {interfaces : List Interface} {wrappers : List Wrapper}
  {scope : Option ScopeProvider} {source : List String}
  (written : moduleLines target interfaces wrappers scope = .ok source)
include written

theorem filter_importing (module name : String) : source.filter (Opens (importing module name)) =
    (aliasImports (Aliases.choose wrappers scope target) (bodiesOf wrappers) target scope).filter
      (Opens (importing module name)) := by
  have narrower : source.filter (Opens (importing module name)) =
      (source.filter (Opens "from ")).filter (Opens (importing module name)) := by
    rw [List.filter_filter]
    refine List.filter_congr fun line _ => ?_
    have wider : Opens (importing module name) line → Opens "from " line := by
      simp only [importing, String.append_assoc]
      exact Opens.of_append
    simpa using wider
  have future := decide_eq_false (future_opens_no_import module name)
  rw [narrower, from_lines written, List.filter_cons_of_neg (by simp [future])]

theorem aliasImport_mem_iff (module name localName : String) :
    aliasImport module name localName ∈ source ↔ aliasImport module name localName ∈
      aliasImports (Aliases.choose wrappers scope target) (bodiesOf wrappers) target scope := by
  have opens : decide (Opens (importing module name) (aliasImport module name localName)) = true :=
    decide_eq_true (opens_append (importing module name) localName)
  have listed := congrArg (aliasImport module name localName ∈ ·) (filter_importing written module name)
  simpa [List.mem_filter, opens] using listed

end Module

theorem deferred_line_ne_stream_line (deferred stream : String) :
    aliasImport runtimeModule deferredWrapper.name deferred ≠
      aliasImport runtimeModule streamWrapper.name stream := by
  intro same
  have opens : Opens (importing runtimeModule deferredWrapper.name)
      (aliasImport runtimeModule streamWrapper.name stream) := same ▸ opens_append _ deferred
  have names := ((opens_aliasImport_iff (by decide) (by decide) _ _ _).mp opens).2.head (c := 'D') rfl
  have begins : (streamWrapper.name ++ " as " ++ stream).toList.head? = some 'S' :=
    (opens_append (streamWrapper.name ++ " as ") stream).head (by decide)
  rw [begins] at names
  contradiction

theorem line_ne_of_module_ne {module other : String} (word : ' ' ∉ module.toList)
    (otherWord : ' ' ∉ other.toList) (apart : module ≠ other) (name localName otherName otherLocal : String) :
    aliasImport module name localName ≠ aliasImport other otherName otherLocal := by
  intro same
  have opens : Opens (importing module name) (aliasImport other otherName otherLocal) :=
    same ▸ opens_append _ localName
  exact apart ((opens_aliasImport_iff word otherWord _ _ _).mp opens).1

theorem isDeferred_of_adapts {scope : Option ScopeProvider} {m : Method} {b : Body} {result : Option TypeRef}
    (adapts : Adapts scope m b result) :
    (b.isDeferred = true ↔ m.convention = .deferred) ∧ (b.isStream = true ↔ m.convention = .streaming) := by
  cases adapts <;> simp [Body.isDeferred, Body.isStream, *]

section Compiled

variable {classes : List (ClassInfo × Context)} {wrappers : List Wrapper}

/-- What the bodies of a module are is what the methods of its classes ask for. -/
theorem Compiled.any_body {kind : Body → Bool} {convention : Convention}
    (compiled : Compiled classes wrappers)
    (shown : ∀ {scope m b result}, Adapts scope m b result → (kind b = true ↔ m.convention = convention)) :
    (bodiesOf wrappers).any kind = true ↔ ∃ e ∈ classes, ∃ m ∈ e.1.methods, m.convention = convention := by
  simp only [bodiesOf, List.any_eq_true, List.mem_flatMap, List.mem_filterMap]
  constructor
  · rintro ⟨b, ⟨w, among, n, member, present⟩, is⟩
    obtain ⟨e, listed, ran⟩ := exists_related_left compiled w among
    obtain ⟨m, declared, method⟩ := exists_related_left (wrapsClass_of_compile ran).methods n member
    obtain ⟨body, same, adapts⟩ := method.adapts
    rw [present, Option.some.injEq] at same
    subst same
    exact ⟨e, listed, m, declared, (shown adapts).mp is⟩
  · rintro ⟨e, listed, m, declared, asked⟩
    obtain ⟨w, among, _, n, member, method⟩ := compiled.method listed declared
    obtain ⟨b, present, adapts⟩ := method.adapts
    exact ⟨b, ⟨w, among, n, member, present⟩, (shown adapts).mpr asked⟩

/-- The module imports its scope in one line, and runs all that is not called directly in it: under the alias
that this line gives, and by the wrappers that it imports where they are called. No parameter has one of these
aliases. -/
structure RunsInScope (target : Option String) (module name : String) (classes : List (ClassInfo × Context))
    (wrappers : List Wrapper) (source : List String) (deferred stream scope : String) : Prop where
  imported : source.filter (Opens (importing module name)) = [aliasImport module name scope]
  defers : ∀ e ∈ classes, ∀ m ∈ e.1.methods, m.convention = .deferred → Written target source m deferred scope
  streams : ∀ e ∈ classes, ∀ m ∈ e.1.methods, m.convention = .streaming → Written target source m stream scope
  bindsDeferred : aliasImport runtimeModule deferredWrapper.name deferred ∈ source ↔
    ∃ e ∈ classes, ∃ m ∈ e.1.methods, m.convention = .deferred
  bindsStream : aliasImport runtimeModule streamWrapper.name stream ∈ source ↔
    ∃ e ∈ classes, ∃ m ∈ e.1.methods, m.convention = .streaming
  free : ∀ s ∈ [deferred, stream, scope], ∀ w ∈ wrappers,
    (∀ n ∈ w.methods, ∀ q ∈ n.parameters, q.name ≠ s) ∧ ∀ q ∈ w.constructor.parameters, q.name ≠ s

theorem freeName_free (name : String) (wrappers : List Wrapper) : ∀ w ∈ wrappers,
    (∀ n ∈ w.methods, ∀ q ∈ n.parameters, q.name ≠ freeName name (Aliases.parameterNames wrappers)) ∧
      ∀ q ∈ w.constructor.parameters, q.name ≠ freeName name (Aliases.parameterNames wrappers) := by
  have apart := freeName_not_mem name (Aliases.parameterNames wrappers)
  intro w among
  constructor
  · intro n member q listed same
    exact apart (mem_parameterNames among member (List.mem_map.mpr ⟨q, listed, same⟩))
  · intro q listed same
    exact apart (List.mem_flatMap.mpr
      ⟨w, among, List.mem_append_right _ (List.mem_map.mpr ⟨q, listed, same⟩)⟩)

theorem aliasImports_foreign {p : ScopeProvider} {target : Option String} {module : String}
    (foreign : p.foreignModule target = some module) (wrappers : List Wrapper) (bodies : List Body) :
    aliasImports (Aliases.choose wrappers (some p) target) bodies target (some p) =
      (if bodies.any Body.isDeferred then [aliasImport runtimeModule deferredWrapper.name
        (Aliases.choose wrappers (some p) target).deferredWrapper] else []) ++
      (if bodies.any Body.isStream then [aliasImport runtimeModule streamWrapper.name
        (Aliases.choose wrappers (some p) target).streamWrapper] else []) ++
      [aliasImport module p.name (freeName ("_" ++ p.name) (Aliases.parameterNames wrappers))] := by
  simp [aliasImports, Aliases.choose, foreign, Option.filter]

theorem Compiled.runsInScope {p : ScopeProvider} {target : Option String} {module : String}
    (compiled : Compiled classes wrappers) (provided : ∀ e ∈ classes, e.2.scope = some p)
    (foreign : p.foreignModule target = some module) (apart : module ≠ runtimeModule)
    (word : ' ' ∉ module.toList) {interfaces : List Interface} {source : List String}
    (text : moduleLines target interfaces wrappers (some p) = .ok source) :
    RunsInScope target module p.name classes wrappers source
      (Aliases.choose wrappers (some p) target).deferredWrapper
      (Aliases.choose wrappers (some p) target).streamWrapper
      (freeName ("_" ++ p.name) (Aliases.parameterNames wrappers)) := by
  have runtime : ' ' ∉ runtimeModule.toList := by decide
  have lines := aliasImports_foreign foreign wrappers (bodiesOf wrappers)
  have called : (Aliases.choose wrappers (some p) target).scopeName (some p.name) =
      freeName ("_" ++ p.name) (Aliases.parameterNames wrappers) :=
    scopeName_foreign (by simp [foreign]) _
  constructor
  case imported =>
    have other : ∀ (b : Bool) (name localName : String),
        (if b then [aliasImport runtimeModule name localName] else []).filter
          (Opens (importing module p.name)) = [] := by
      intro b name localName
      cases b <;> simp [opens_aliasImport_iff word runtime, apart]
    have own := opens_append (importing module p.name)
      (freeName ("_" ++ p.name) (Aliases.parameterNames wrappers))
    rw [filter_importing text, lines, List.filter_append, List.filter_append, other, other]
    exact List.filter_eq_self.mpr (List.forall_mem_singleton.mpr (decide_eq_true own))
  case defers =>
    intro e listed m declared convention
    exact called ▸ compiled.written provided text listed declared (.deferred convention)
  case streams =>
    intro e listed m declared convention
    exact called ▸ compiled.written provided text listed declared (.streaming convention)
  case bindsDeferred =>
    rw [aliasImport_mem_iff text, lines,
      ← compiled.any_body fun adapts => (isDeferred_of_adapts adapts).1]
    simp [deferred_line_ne_stream_line, line_ne_of_module_ne runtime word (Ne.symm apart)]
  case bindsStream =>
    rw [aliasImport_mem_iff text, lines,
      ← compiled.any_body fun adapts => (isDeferred_of_adapts adapts).2]
    simp [(deferred_line_ne_stream_line _ _).symm, line_ne_of_module_ne runtime word (Ne.symm apart)]
  case free =>
    simp only [List.forall_mem_cons]
    exact ⟨freeName_free _ _, freeName_free _ _, freeName_free _ _, by simp⟩

/-- A scope that is configured by a path into another module is found there, imported once, and given to every
call that needs one, whatever the classes and their documentation. -/
theorem bodies_run_in_configured_scope (module name : String) {target : Option String} (named : module ≠ "")
    (apart : module ≠ runtimeModule) (word : ' ' ∉ module.toList) (dotless : '.' ∉ name.toList)
    (away : target ≠ some module)
    (provided : ∀ e ∈ classes, e.2.scope = some (ScopeProvider.ofPath (module ++ "." ++ name)))
    (compiled : Compiled classes wrappers) (interfaces : List Interface) :
    ScopeProvider.ofPath (module ++ "." ++ name) = { name, module := some module } ∧
    ∃ source deferred stream scope,
      moduleText target interfaces wrappers (some (ScopeProvider.ofPath (module ++ "." ++ name))) =
        .ok (Text.joinLines source ++ "\n") ∧
      RunsInScope target module name classes wrappers source deferred stream scope ∧
      ((∀ i ∈ interfaces, ∀ s ∈ i.fragments, OneLine s) → (∀ w ∈ wrappers, ∀ s ∈ w.fragments, OneLine s) →
        OneLine module → OneLine name → Text.endedLines (Text.joinLines source ++ "\n") = source) := by
  have path := ScopeProvider.ofPath_dotted module dotless
  rw [path] at provided ⊢
  have foreign : ScopeProvider.foreignModule { name, module := some module } target = some module := by
    simp [ScopeProvider.foreignModule, Option.filter, named, Ne.symm away]
  obtain ⟨source, text⟩ := exists_moduleLines compiled.bodied target interfaces
    (some { name, module := some module })
  refine ⟨rfl, source, _, _, _, by rw [moduleText, text]; rfl,
    compiled.runsInScope provided foreign apart word text, ?_⟩
  intro protocols classes plainModule plainName
  rw [ended_of_moduleLines text]
  refine Text.endedLines_ended (oneLine_moduleLines protocols classes ?_ text)
  simp [ScopeProvider.fragments, plainModule, plainName]

theorem catalog_runs_in_configured_scope : ∃ source deferred stream scope,
    moduleText (some "app.wrappers") [] [catalogWrapper] (some (ScopeProvider.ofPath "app.scopes.scope")) =
      .ok (Text.joinLines source ++ "\n") ∧
    RunsInScope (some "app.wrappers") "app.scopes" "scope" [(catalog, catalogContext (some "app.scopes"))]
      [catalogWrapper] source deferred stream scope ∧
    Text.endedLines (Text.joinLines source ++ "\n") = source := by
  have path : ScopeProvider.ofPath ("app.scopes" ++ "." ++ "scope") = scopeIn (some "app.scopes") := by decide
  obtain ⟨_, source, deferred, stream, scope, text, runs, reads⟩ :=
    bodies_run_in_configured_scope "app.scopes" "scope" (by decide) (by decide) (by decide) (by decide)
      (by decide : some "app.wrappers" ≠ some "app.scopes")
      (path ▸ catalog_provided (some "app.scopes")) (catalog_compiled (some "app.scopes")) []
  exact ⟨source, deferred, stream, scope, text, runs, reads (by simp) (by decide) (by decide) (by decide)⟩

end Compiled

end SyncFacade
