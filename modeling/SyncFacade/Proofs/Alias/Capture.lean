import SyncFacade.Proofs.Alias.FreeName
import SyncFacade.Proofs.Source.Layout
import SyncFacade.Proofs.Wrapping

/-! What the bodies of a generated module evaluate by name, against what their methods bind. The wrapper
of a result or stream is always called by an alias that no parameter has. The scope is passed by such an
alias only where it is imported; elsewhere it goes by its own name, which a parameter may have as well. -/
namespace SyncFacade

/-- The names that a method binds: the instance it is called on, and its parameters. -/
def Method.boundNames (m : Method) : List String := "self" :: m.parameters.map Parameter.name

/-- The wrapper that a method's body calls and the scope that it passes, as the body names them. -/
inductive Refers (a : Aliases) (p : ScopeProvider) (m : Method) : String → String → Prop where
  | deferred : m.convention = .deferred →
      Refers a p m a.deferredWrapper (a.scopeName (some p.name))
  | streaming : m.convention = .streaming →
      Refers a p m a.streamWrapper (a.scopeName (some p.name))

/-- The text of a method, with a body that calls the wrapper with the scope and the call to be made. -/
def Written (target : Option String) (source : List String) (m : Method)
    (wrapper scope : String) : Prop :=
  ∃ result, [indent ++ { m with result }.header target] ++ docRows indent2 m.doc ++
    [indent2 ++ "return " ++ (wrapper ++ "(" ++ scope ++ ", lambda: " ++
      ("self._wrapped." ++ m.name ++ "(" ++ Parameter.renderArguments m.parameters ++ ")") ++ ")")]
    <:+: source

theorem forall_refers_iff {a : Aliases} {p : ScopeProvider} {m : Method} {q : String → Prop} :
    (∀ wrapper scope, Refers a p m wrapper scope → q scope) ↔
      (m.convention ≠ .direct → q (a.scopeName (some p.name))) := by
  constructor
  · intro all suspends
    cases convention : m.convention with
    | direct => exact absurd convention suspends
    | deferred => exact all _ _ (.deferred convention)
    | streaming => exact all _ _ (.streaming convention)
  · intro holds wrapper scope refers
    cases refers with
    | deferred convention => exact holds (by simp [convention])
    | streaming convention => exact holds (by simp [convention])

section Scope

variable {p : ScopeProvider} {target : Option String} {wrappers : List Wrapper}

theorem scopeName_foreign (foreign : (p.foreignModule target).isSome) (scope : Option String) :
    (Aliases.choose wrappers (some p) target).scopeName scope =
      freeName ("_" ++ p.name) (Aliases.parameterNames wrappers) := by
  have named : freeName ("_" ++ p.name) (Aliases.parameterNames wrappers) ≠ "" :=
    freeName_ne _ _ _ (by decide)
  simp [Aliases.scopeName, Aliases.choose, Option.filter, foreign, named]

theorem scopeName_home (home : ¬ (p.foreignModule target).isSome) (name : String) :
    (Aliases.choose wrappers (some p) target).scopeName (some name) = name := by
  simp [Aliases.scopeName, Aliases.choose, Option.filter, home]

end Scope

theorem mem_parameterNames {wrappers : List Wrapper} {w : Wrapper} (among : w ∈ wrappers) {n : Method}
    (member : n ∈ w.methods) {name : String} (listed : name ∈ n.parameters.map Parameter.name) :
    name ∈ Aliases.parameterNames wrappers :=
  List.mem_flatMap.mpr
    ⟨w, among, List.mem_append_left _ (List.mem_flatMap.mpr ⟨n, member, listed⟩)⟩

/-- An alias hides from no method what it stands for. -/
theorem freeName_not_bound {wrappers : List Wrapper} {w : Wrapper} (among : w ∈ wrappers) {n : Method}
    (member : n ∈ w.methods) (name : String) :
    freeName ("_" ++ name) (Aliases.parameterNames wrappers) ∉ n.boundNames := by
  intro bound
  rcases List.mem_cons.mp bound with self | listed
  · exact freeName_ne name "self" _ (by decide) self
  · exact freeName_not_mem _ _ (mem_parameterNames among member listed)

theorem ownCall_render {f : DelegateField} (name : f.name = "wrapped") (hidden : f.isPrivate = true)
    (m : Method) : (ownCall m).render f =
      "self._wrapped." ++ m.name ++ "(" ++ Parameter.renderArguments m.parameters ++ ")" := by
  have field : f.attribute "wrapped" = "_wrapped" := by
    simp [DelegateField.attribute, attributeName, name, hidden]
  have prefixed : "self." ++ "_wrapped" ++ "." = "self._wrapped." := by decide
  simp only [Call.render, ownCall, field, prefixed]

theorem render_of_refers {p : ScopeProvider} {m : Method} {body : Body} {result : Option TypeRef}
    {a : Aliases} {wrapper scope : String} {field : DelegateField}
    (adapts : Adapts (some p) m body result) (refers : Refers a p m wrapper scope) :
    body.render field a =
      wrapper ++ "(" ++ scope ++ ", lambda: " ++ (ownCall m).render field ++ ")" := by
  cases refers with
  | deferred convention =>
    cases adapts with
    | direct other => rw [convention] at other; contradiction
    | deferred q _ same => cases same; rfl
    | streaming q _ other => rw [convention] at other; contradiction
  | streaming convention =>
    cases adapts with
    | direct other => rw [convention] at other; contradiction
    | deferred q other => rw [convention] at other; contradiction
    | streaming q item _ same => cases same; rfl

/-- A compiled method stands in the module with the body that was chosen for its convention. -/
theorem written_of_wraps {c : ClassInfo} {context : Context} {p : ScopeProvider} {w : Wrapper}
    {wrappers : List Wrapper} {target : Option String} {interfaces : List Interface}
    {source : List String} (provided : context.scope = some p) (wraps : WrapsClass c context w)
    (written : moduleLines target interfaces wrappers (some p) = .ok source) (among : w ∈ wrappers)
    {m n : Method} (member : n ∈ w.methods) (method : WrapsMethod context m n)
    {wrapper scope : String}
    (refers : Refers (Aliases.choose wrappers (some p) target) p m wrapper scope) :
    Written target source m wrapper scope := by
  obtain ⟨block, lines, stands⟩ := method_infix_module written among member
  obtain ⟨body, present, adapts⟩ := method.adapts
  rw [n.lines_ok present, Except.ok.injEq] at lines
  have call : (ownCall m).render w.delegate =
      "self._wrapped." ++ m.name ++ "(" ++ Parameter.renderArguments m.parameters ++ ")" := by
    rw [wraps.delegate]
    exact ownCall_render rfl rfl m
  have header : n.header target = { m with result := n.result }.header target := by
    simp only [Method.header, method.name, method.parameters]
  rw [provided] at adapts
  rw [render_of_refers adapts refers, call, header, method.doc] at lines
  subst lines
  refine ⟨n.result, List.IsInfix.trans ⟨n.decorators, [], ?_⟩ stands⟩
  simp only [List.append_nil, List.append_assoc]

theorem boundNames_eq {context : Context} {m n : Method} (method : WrapsMethod context m n) :
    n.boundNames = m.boundNames := by
  rw [Method.boundNames, Method.boundNames, method.parameters]

section Compiled

variable {p : ScopeProvider} {classes : List (ClassInfo × Context)} {wrappers : List Wrapper}

/-- Each wrapper is what its class is compiled to, in its context. -/
def Compiled (classes : List (ClassInfo × Context)) (wrappers : List Wrapper) : Prop :=
  List.Forall₂ (fun e w => (e.1.compile e.2).outcome = .ok w) classes wrappers

theorem Compiled.bodied (compiled : Compiled classes wrappers) : Bodied wrappers := by
  intro w among
  obtain ⟨e, _, ran⟩ := exists_related_left compiled w among
  exact (wrapsClass_of_compile ran).exists_body

theorem Compiled.method (compiled : Compiled classes wrappers) {e : ClassInfo × Context}
    (listed : e ∈ classes) {m : Method} (declared : m ∈ e.1.methods) :
    ∃ w ∈ wrappers, WrapsClass e.1 e.2 w ∧ ∃ n ∈ w.methods, WrapsMethod e.2 m n := by
  obtain ⟨w, among, ran⟩ := exists_related_right compiled e listed
  have wraps := wrapsClass_of_compile ran
  exact ⟨w, among, wraps, exists_related_right wraps.methods m declared⟩

theorem Compiled.freeName_not_bound (compiled : Compiled classes wrappers) {e : ClassInfo × Context}
    (listed : e ∈ classes) {m : Method} (declared : m ∈ e.1.methods) (name : String) :
    freeName ("_" ++ name) (Aliases.parameterNames wrappers) ∉ m.boundNames := by
  obtain ⟨w, among, _, n, member, method⟩ := compiled.method listed declared
  rw [← boundNames_eq method]
  exact SyncFacade.freeName_not_bound among member name

theorem Compiled.written (compiled : Compiled classes wrappers)
    (provided : ∀ e ∈ classes, e.2.scope = some p) {target : Option String}
    {interfaces : List Interface} {source : List String}
    (text : moduleLines target interfaces wrappers (some p) = .ok source)
    {e : ClassInfo × Context} (listed : e ∈ classes) {m : Method} (declared : m ∈ e.1.methods)
    {wrapper scope : String}
    (refers : Refers (Aliases.choose wrappers (some p) target) p m wrapper scope) :
    Written target source m wrapper scope := by
  obtain ⟨w, among, wraps, n, member, method⟩ := compiled.method listed declared
  exact written_of_wraps (provided e listed) wraps text among member method refers

/-- Every method that is not direct stands in the module, and calls its wrapper by a name that it does
not bind itself. The same holds of the scope in all of them exactly when it comes from another module or
no method of those has a parameter of the scope's name. -/
theorem scope_uncaptured_iff (provided : ∀ e ∈ classes, e.2.scope = some p)
    (compiled : Compiled classes wrappers) (target : Option String) (interfaces : List Interface) :
    ∃ source, moduleText target interfaces wrappers (some p) =
        .ok (Text.joinLines source ++ "\n") ∧
      (∀ e ∈ classes, ∀ m ∈ e.1.methods, ∀ wrapper scope,
        Refers (Aliases.choose wrappers (some p) target) p m wrapper scope →
          Written target source m wrapper scope ∧ wrapper ∉ m.boundNames) ∧
      ((∀ e ∈ classes, ∀ m ∈ e.1.methods, ∀ wrapper scope,
        Refers (Aliases.choose wrappers (some p) target) p m wrapper scope →
          scope ∉ m.boundNames) ↔
        (p.foreignModule target).isSome ∨
          ∀ e ∈ classes, ∀ m ∈ e.1.methods, m.convention ≠ .direct → p.name ∉ m.boundNames) := by
  obtain ⟨source, text⟩ := exists_moduleLines compiled.bodied target interfaces (some p)
  refine ⟨source, by rw [moduleText, text]; rfl, ?_, ?_⟩
  · intro e listed m declared wrapper scope refers
    refine ⟨compiled.written provided text listed declared refers, ?_⟩
    cases refers with
    | deferred => exact compiled.freeName_not_bound listed declared deferredWrapper.name
    | streaming => exact compiled.freeName_not_bound listed declared streamWrapper.name
  · simp only [forall_refers_iff]
    by_cases foreign : (p.foreignModule target).isSome
    · refine iff_of_true ?_ (Or.inl foreign)
      intro e listed m declared _
      rw [scopeName_foreign foreign]
      exact compiled.freeName_not_bound listed declared p.name
    · rw [or_iff_right foreign, scopeName_home foreign]

end Compiled

def findInScope : Method :=
  { name := "find", parameters := [{ name := "scope" }], convention := .deferred, suspends := true }

def catalog : ClassInfo := { name := "Catalog", module := some "app.catalog", methods := [findInScope] }

def scopeIn (module : Option String) : ScopeProvider := { name := "scope", module }

def catalogContext (module : Option String) : Context :=
  { wrapperName := "CatalogWrapper", module := some "app.wrappers", scope := some (scopeIn module) }

def catalogWrapper : Wrapper :=
  { name := "CatalogWrapper"
    module := some "app.wrappers"
    methods := [findInScope.adapted (some "scope") none delegateName]
    delegate := { name := "wrapped", type := catalog.type }
    constructor :=
      { parameters := [{ name := "wrapped", type := some catalog.type }], assigns := ["wrapped"] }
    doc := some (wrapperDoc catalog.type) }

theorem catalog_compiled (module : Option String) :
    Compiled [(catalog, catalogContext module)] [catalogWrapper] :=
  .cons rfl .nil

theorem catalog_provided (module : Option String) :
    ∀ e ∈ [(catalog, catalogContext module)], e.2.scope = some (scopeIn module) := by
  intro e member
  cases List.mem_singleton.mp member
  rfl

/-- An imported scope does not get in the way of a parameter of its name. -/
theorem imported_scope_uncaptured :
    ∃ source, moduleText (some "app.wrappers") [] [catalogWrapper]
        (some (scopeIn (some "app.scopes"))) = .ok (Text.joinLines source ++ "\n") ∧
      Written (some "app.wrappers") source findInScope "_DeferredWrapper" "_scope" ∧
      "_DeferredWrapper" ∉ findInScope.boundNames ∧ "_scope" ∉ findInScope.boundNames := by
  obtain ⟨source, text, named, uncaptured⟩ :=
    scope_uncaptured_iff (catalog_provided (some "app.scopes")) (catalog_compiled (some "app.scopes"))
      (some "app.wrappers") []
  have refers : Refers (Aliases.choose [catalogWrapper] (some (scopeIn (some "app.scopes")))
      (some "app.wrappers")) (scopeIn (some "app.scopes")) findInScope "_DeferredWrapper" "_scope" :=
    .deferred rfl
  have listed := List.mem_singleton_self (catalog, catalogContext (some "app.scopes"))
  have declared := List.mem_singleton_self findInScope
  obtain ⟨written, free⟩ := named _ listed _ declared _ _ refers
  exact ⟨source, text, written, free,
    uncaptured.mpr (Or.inl (by decide)) _ listed _ declared _ _ refers⟩

/-- A scope of the module itself is hidden by a parameter of its name, which is passed in its place. -/
theorem own_scope_captured :
    ∃ source, moduleText (some "app.wrappers") [] [catalogWrapper]
        (some (scopeIn (some "app.wrappers"))) = .ok (Text.joinLines source ++ "\n") ∧
      Compiled [(catalog, catalogContext (some "app.wrappers"))] [catalogWrapper] ∧
      Written (some "app.wrappers") source findInScope "_DeferredWrapper" "scope" ∧
      "scope" ∈ findInScope.parameters.map Parameter.name := by
  have compiled := catalog_compiled (some "app.wrappers")
  obtain ⟨source, text⟩ := exists_moduleLines compiled.bodied (some "app.wrappers") []
    (some (scopeIn (some "app.wrappers")))
  have written := compiled.written (catalog_provided (some "app.wrappers")) text
    (List.mem_singleton_self _) (List.mem_singleton_self findInScope) (.deferred rfl)
  exact ⟨source, by rw [moduleText, text]; rfl, compiled, written, by decide⟩

end SyncFacade
