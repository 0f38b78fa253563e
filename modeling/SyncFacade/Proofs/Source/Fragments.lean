import SyncFacade.Proofs.Source.Imports
import SyncFacade.Proofs.Source.Layout
import SyncFacade.Proofs.Alias.FreeName
import SyncFacade.Proofs.Text.Lines

/-! The parts of descriptions that are written as they are: names, the texts of types and those of defaults. If
none of them has a line break, no line of a generated module has one, since documentation is divided at all its
line breaks before it is written. -/
namespace SyncFacade

theorem oneLine_freeName {name : String} (plain : OneLine name) (taken : List String) :
    OneLine (freeName name taken) := by
  obtain ⟨k, _, chosen, _⟩ := freeName_least name taken
  rw [chosen, OneLine, toList_underscored, List.mem_append, List.mem_replicate]
  rintro (⟨_, underscore⟩ | inside)
  · contradiction
  · exact plain inside

namespace TypeRef

mutual

/-- The names and modules in a type, at any depth. -/
def fragments : TypeRef → List String
  | ⟨name, module, arguments⟩ => name :: module.toList ++ fragmentsOfAll arguments

def fragmentsOfAll : List TypeRef → List String
  | [] => []
  | t :: ts => fragments t ++ fragmentsOfAll ts

end

/-- A property of texts that holds of the text of a type, if it holds of the names and modules in it. -/
structure KeptByNotation (P : List Char → Prop) : Prop where
  dot : P ['.']
  append : ∀ {before after : List Char}, P before → P after → P (before ++ after)
  bracketed : ∀ {parts : List (List Char)}, (∀ part ∈ parts, P part) →
    P ('[' :: [',', ' '].intercalate parts ++ [']'])

theorem kept_free {c : Char} (other : c ∉ ['.', '[', ']', ',', ' ']) : KeptByNotation (c ∉ ·) := by
  simp only [List.mem_cons, List.not_mem_nil, or_false, not_or] at other
  obtain ⟨dot, opening, closing, comma, space⟩ := other
  have joined : ∀ parts : List (List Char), (∀ part ∈ parts, c ∉ part) → c ∉ [',', ' '].intercalate parts := by
    intro parts each
    induction parts with
    | nil => exact List.not_mem_nil
    | cons first rest ih =>
      obtain ⟨here, later⟩ := List.forall_mem_cons.mp each
      cases rest with
      | nil => simpa using here
      | cons second more => simp [List.intercalate_cons_cons, here, comma, space, ih later]
  exact ⟨by simp [dot], fun before after => by simp [before, after], fun each => by
    simp [opening, closing, joined _ each]⟩

variable {P : List Char → Prop}

theorem KeptByNotation.label (kept : KeptByNotation P) {name : String} {module : Option String}
    (plain : ∀ s ∈ name :: module.toList, P s.toList) (target : Option String) :
    P (TypeRef.label target ⟨name, module, []⟩).toList := by
  obtain ⟨own, defined⟩ := List.forall_mem_cons.mp plain
  cases qualified : printedQualifier target ⟨name, module, []⟩ with
  | none => simpa only [TypeRef.label, qualified] using own
  | some m =>
    have given : module = some m :=
      (Option.filter_eq_some_iff.mp (Option.filter_eq_some_iff.mp qualified).1).1
    simp only [TypeRef.label, qualified, String.toList_append]
    exact kept.append (kept.append (defined m (by simp [given])) kept.dot) own

mutual

theorem KeptByNotation.render (kept : KeptByNotation P) (target : Option String) : ∀ t : TypeRef,
    (∀ s ∈ t.fragments, P s.toList) → P (t.render target).toList
  | ⟨name, module, []⟩ => by
    intro plain
    simp only [fragments, List.forall_mem_append] at plain
    rw [render_plain]
    exact kept.label plain.1 target
  | ⟨name, module, a :: rest⟩ => by
    intro plain
    simp only [fragments, List.forall_mem_append] at plain
    have inside := kept.bracketed (kept.renderAll target (a :: rest) plain.2)
    simpa [TypeRef.render] using kept.append (kept.label plain.1 target) inside

theorem KeptByNotation.renderAll (kept : KeptByNotation P) (target : Option String) : ∀ ts : List TypeRef,
    (∀ s ∈ fragmentsOfAll ts, P s.toList) → ∀ cs ∈ (TypeRef.renderAll target ts).map String.toList, P cs
  | [] => by simp [TypeRef.renderAll]
  | t :: ts => by
    intro plain
    simp only [fragmentsOfAll, List.forall_mem_append] at plain
    simp only [TypeRef.renderAll, List.map_cons, List.forall_mem_cons]
    exact ⟨kept.render target t plain.1, kept.renderAll target ts plain.2⟩

end

theorem oneLine_render (target : Option String) (t : TypeRef) (plain : ∀ s ∈ t.fragments, OneLine s) :
    OneLine (t.render target) :=
  (kept_free (by decide)).render target t plain

mutual

theorem mem_fragments_of_modules {m : String} : ∀ t : TypeRef, m ∈ t.modules → m ∈ t.fragments
  | ⟨name, module, arguments⟩ => by
    intro member
    rw [modules, List.mem_append] at member
    rw [fragments, List.mem_append]
    rcases member with own | inside
    · have defined := (Option.filter_eq_some_iff.mp (Option.mem_toList.mp own)).1
      exact Or.inl (List.mem_cons_of_mem _ (Option.mem_toList.mpr defined))
    · exact Or.inr (mem_fragmentsOfAll_of_modules arguments inside)

theorem mem_fragmentsOfAll_of_modules {m : String} : ∀ ts : List TypeRef,
    m ∈ modulesOfAll ts → m ∈ fragmentsOfAll ts
  | [] => by simp [modulesOfAll]
  | t :: ts => by
    intro member
    rw [modulesOfAll, List.mem_append] at member
    rw [fragmentsOfAll, List.mem_append]
    exact member.imp (mem_fragments_of_modules t) (mem_fragmentsOfAll_of_modules ts)

end

end TypeRef

def annotationFragments (t : Option TypeRef) : List String := (t.map TypeRef.fragments).getD []

namespace Parameter

def fragments (p : Parameter) : List String :=
  p.name :: annotationFragments p.type ++ p.default.toList

theorem oneLine_markedName {p : Parameter} (plain : OneLine p.name) : OneLine p.markedName := by
  unfold markedName
  split
  · exact oneLine_append.mpr ⟨by decide, plain⟩
  · exact oneLine_append.mpr ⟨by decide, plain⟩
  · exact plain

theorem oneLine_declaration {target : Option String} {p : Parameter}
    (plain : ∀ s ∈ p.fragments, OneLine s) : OneLine (p.declaration target) := by
  simp only [fragments, List.cons_append, List.forall_mem_cons, List.forall_mem_append] at plain
  obtain ⟨name, type, default⟩ := plain
  simp only [declaration, oneLine_append]
  refine ⟨⟨oneLine_markedName name, ?_⟩, ?_⟩
  · cases typed : p.type with
    | none => exact oneLine_empty
    | some t =>
      rw [typed] at type
      exact oneLine_append.mpr ⟨by decide, t.oneLine_render target type⟩
  · cases given : p.default with
    | none => exact oneLine_empty
    | some d => exact oneLine_append.mpr ⟨by decide, default d (by simp [given])⟩

variable {ps : List Parameter} {target : Option String}

theorem forall_mem_items {Q : String → Prop} (star : Q "*") (slash : Q "/")
    (each : ∀ p ∈ ps, Q (p.declaration target)) (starred : Bool) : ∀ part ∈ items target starred ps, Q part := by
  induction ps generalizing starred with
  | nil => simp [items]
  | cons p rest ih =>
    obtain ⟨here, later⟩ := List.forall_mem_cons.mp each
    have mark : ∀ (b : Bool) (m : String), Q m → ∀ part ∈ (if b then [m] else []), Q part := by
      intro b m shown
      cases b <;> simp [shown]
    simp only [items, List.forall_mem_append, List.forall_mem_singleton]
    exact ⟨⟨⟨mark _ "*" star, here⟩, mark _ "/" slash⟩, ih later _⟩

theorem oneLine_renderAll (target : Option String) {ps : List Parameter}
    (plain : ∀ p ∈ ps, ∀ s ∈ p.fragments, OneLine s) : OneLine (renderAll target ps) :=
  oneLine_intercalate (by decide)
    (forall_mem_items (by decide) (by decide) (fun p member => oneLine_declaration (plain p member)) false)

theorem oneLine_renderArguments {ps : List Parameter} (plain : ∀ p ∈ ps, ∀ s ∈ p.fragments, OneLine s) :
    OneLine (renderArguments ps) := by
  refine oneLine_intercalate (by decide) fun s member => ?_
  obtain ⟨p, listed, rfl⟩ := List.mem_map.mp member
  have name : OneLine p.name := plain p listed p.name List.mem_cons_self
  unfold argument
  split
  · simp only [oneLine_append]
    exact ⟨⟨name, by decide⟩, name⟩
  · exact oneLine_markedName name

end Parameter

theorem lineFeed_not_mem_literalLines {margin cs : List Char} {ls : List (List Char)}
    (plain : '\n' ∉ margin) (made : Docstring.literalLines margin cs = some ls) : ∀ l ∈ ls, '\n' ∉ l := by
  have free : ∀ l ∈ Text.lines (Docstring.escapeTriples cs), '\n' ∉ l := fun l member feed =>
    absurd (Text.isLineBreak_of_mem_lines member '\n' feed) (by decide)
  have quotes : '\n' ∉ Docstring.tripleQuote := by decide
  unfold Docstring.literalLines at made
  intro l member
  split at made
  · contradiction
  · next only spelled =>
    cases made
    cases List.mem_singleton.mp member
    simp [plain, quotes, free only (by simp [spelled])]
  · next first rest _ spelled =>
    cases made
    rw [spelled, List.forall_mem_cons] at free
    simp only [List.cons_append, List.mem_cons, List.mem_append, List.mem_map, List.not_mem_nil,
      or_false] at member
    rcases member with rfl | ⟨k, among, rfl⟩ | rfl
    · simp [plain, quotes, free.1]
    · split
      · exact List.not_mem_nil
      · simp [plain, free.2 k among]
    · simp [plain, quotes]

theorem oneLine_docRows {margin : String} (plain : OneLine margin) (doc : Option String) :
    ∀ l ∈ docRows margin doc, OneLine l := by
  intro l member
  obtain ⟨text, rows, spelled, row, among, rfl⟩ := mem_docRows member
  simpa [OneLine] using lineFeed_not_mem_literalLines plain spelled row among

theorem oneLine_classDocRows (doc : Option String) : ∀ l ∈ classDocRows doc, OneLine l := by
  intro l member
  rcases mem_classDocRows member with rfl | inner
  · exact oneLine_empty
  · exact oneLine_docRows (by decide) doc l inner

def Call.fragments (c : Call) : List String :=
  c.receiver :: c.method :: c.arguments.flatMap Parameter.fragments

def Body.scope? : Body → Option String
  | .direct _ => none
  | .deferred scope _ => scope
  | .stream scope _ => scope

def Body.fragments (b : Body) : List String := b.scope?.toList ++ b.call.fragments

def Method.fragments (m : Method) : List String :=
  m.name :: m.parameters.flatMap Parameter.fragments ++ annotationFragments m.result

def ClassInfo.fragments (c : ClassInfo) : List String :=
  c.name :: c.module.toList ++ c.methods.flatMap Method.fragments ++ c.supertypes.flatMap TypeRef.fragments

def Interface.fragments (i : Interface) : List String :=
  i.name :: i.methods.flatMap Method.fragments ++ i.supertypes.flatMap TypeRef.fragments

def DelegateField.fragments (f : DelegateField) : List String := f.name :: f.type.fragments

def Constructor.fragments (c : Constructor) : List String :=
  c.parameters.flatMap Parameter.fragments ++ c.assigns

def Wrapper.fragments (w : Wrapper) : List String :=
  w.name :: w.delegate.fragments ++ w.constructor.fragments ++ w.supertypes.flatMap TypeRef.fragments ++
    w.methods.flatMap fun m => m.fragments ++ (m.body.map Body.fragments).getD []

def ScopeProvider.fragments (p : ScopeProvider) : List String := p.name :: p.module.toList

/-- Names that can stand for others in bodies. -/
def Aliases.Unbroken (a : Aliases) : Prop := ∀ s ∈ a.deferredWrapper :: a.streamWrapper :: a.scope.toList,
  OneLine s

theorem DelegateField.oneLine_attribute (f : DelegateField) {name : String} (plain : OneLine name) :
    OneLine (f.attribute name) := by
  unfold DelegateField.attribute attributeName
  split
  · exact oneLine_append.mpr ⟨by decide, plain⟩
  · exact plain

theorem Call.oneLine_render {c : Call} (field : DelegateField) (plain : ∀ s ∈ c.fragments, OneLine s) :
    OneLine (c.render field) := by
  simp only [fragments, List.forall_mem_cons, List.forall_mem_flatMap] at plain
  obtain ⟨receiver, method, arguments⟩ := plain
  simp only [render, oneLine_append, field.oneLine_attribute receiver, method,
    Parameter.oneLine_renderArguments arguments]
  decide

theorem Aliases.oneLine_scopeName {a : Aliases} (plain : a.Unbroken) {scope : Option String}
    (own : ∀ s ∈ scope.toList, OneLine s) : OneLine (a.scopeName scope) := by
  simp only [Aliases.Unbroken, List.forall_mem_cons] at plain
  unfold scopeName
  split
  · next localName chosen =>
    exact plain.2.2 localName (Option.mem_toList.mpr (Option.filter_eq_some_iff.mp chosen).1)
  · cases scope with
    | none => decide
    | some s => exact own s (by simp)

theorem Body.oneLine_render {b : Body} (field : DelegateField) {aliases : Aliases} (named : aliases.Unbroken)
    (plain : ∀ s ∈ b.fragments, OneLine s) : OneLine (b.render field aliases) := by
  simp only [fragments, List.forall_mem_append] at plain
  obtain ⟨own, called⟩ := plain
  have scope := Aliases.oneLine_scopeName named own
  have call := Call.oneLine_render field called
  simp only [Aliases.Unbroken, List.forall_mem_cons] at named
  have opening : OneLine "(" := by decide
  have behind : OneLine ", lambda: " := by decide
  have closing : OneLine ")" := by decide
  cases b with
  | direct c => exact call
  | deferred s c =>
    simp only [render, oneLine_append]
    exact ⟨⟨⟨⟨⟨named.1, opening⟩, scope⟩, behind⟩, call⟩, closing⟩
  | stream s c =>
    simp only [render, oneLine_append]
    exact ⟨⟨⟨⟨⟨named.2.1, opening⟩, scope⟩, behind⟩, call⟩, closing⟩

theorem Method.oneLine_header {m : Method} (target : Option String)
    (plain : ∀ s ∈ m.fragments, OneLine s) : OneLine (m.header target) := by
  simp only [fragments, List.cons_append, List.forall_mem_cons, List.forall_mem_append,
    List.forall_mem_flatMap] at plain
  obtain ⟨name, parameters, result⟩ := plain
  have listed := Parameter.oneLine_renderAll target parameters
  have given : OneLine (if Parameter.renderAll target m.parameters = "" then ""
      else ", " ++ Parameter.renderAll target m.parameters) := by
    split
    · exact oneLine_empty
    · exact oneLine_append.mpr ⟨by decide, listed⟩
  cases typed : m.result with
  | none =>
    simp only [header, typed, oneLine_append, name, given]
    decide
  | some t =>
    rw [typed] at result
    simp only [header, typed, oneLine_append, name, given, t.oneLine_render target result]
    decide

theorem Method.oneLine_lines {m : Method} {field : DelegateField} {target : Option String}
    {aliases : Aliases} (named : aliases.Unbroken) (plain : ∀ s ∈ m.fragments, OneLine s)
    (body : ∀ s ∈ (m.body.map Body.fragments).getD [], OneLine s) {ls : List String}
    (written : m.lines field target aliases = .ok ls) : ∀ l ∈ ls, OneLine l := by
  cases present : m.body with
  | none => simp [lines_eq, present, renderBody, Except.map] at written
  | some b =>
    rw [m.lines_ok present, Except.ok.injEq] at written
    subst written
    rw [present] at body
    have marks : ∀ l ∈ m.decorators, OneLine l := by
      unfold decorators
      split
      · decide
      · simp
    have docs : ∀ l ∈ docRows indent2 m.doc, OneLine l := oneLine_docRows (by decide) m.doc
    have margin : OneLine indent := by decide
    have opening : OneLine indent2 ∧ OneLine "return " := by decide
    simp only [List.forall_mem_append, List.forall_mem_singleton, oneLine_append]
    exact ⟨⟨⟨marks, margin, oneLine_header target plain⟩, docs⟩, opening, Body.oneLine_render field named body⟩

theorem Interface.oneLine_rows {i : Interface} {target : Option String}
    (plain : ∀ s ∈ i.fragments, OneLine s) : ∀ l ∈ i.rows target, OneLine l := by
  simp only [fragments, List.cons_append, List.forall_mem_cons, List.forall_mem_append,
    List.forall_mem_flatMap] at plain
  obtain ⟨name, methods, supertypes⟩ := plain
  have bases : ∀ s ∈ i.supertypes.map (·.render target) ++ [protocolBase], OneLine s := by
    simp only [List.forall_mem_append, List.forall_mem_map, List.forall_mem_singleton]
    exact ⟨fun t listed => t.oneLine_render target (supertypes t listed), by decide⟩
  have pass : ∀ l ∈ (if i.methods.isEmpty && (i.doc.getD "").isEmpty then [indent ++ "pass"] else []),
      OneLine l := by
    split
    · decide
    · simp
  have header : OneLine ("class " ++ i.name ++ "(" ++ ", ".intercalate
      (i.supertypes.map (·.render target) ++ [protocolBase]) ++ "):") := by
    have shown : OneLine (", ".intercalate (i.supertypes.map (·.render target) ++ [protocolBase])) :=
      oneLine_intercalate (by decide) bases
    simp only [oneLine_append, name, shown]
    decide
  have signatures : ∀ l ∈ i.methods.map fun m => indent ++ m.header target ++ " ...", OneLine l := by
    rw [List.forall_mem_map]
    intro m listed
    have signature := Method.oneLine_header target (methods m listed)
    simp only [oneLine_append, signature]
    decide
  simp only [rows, opening, methodLines, List.forall_mem_append, List.forall_mem_singleton]
  exact ⟨⟨⟨header, oneLine_classDocRows i.doc⟩, pass⟩, signatures⟩

theorem Constructor.oneLine_lines {c : Constructor} {field : DelegateField} {target : Option String}
    (plain : ∀ s ∈ c.fragments, OneLine s) : ∀ l ∈ c.lines field target, OneLine l := by
  simp only [fragments, List.forall_mem_append, List.forall_mem_flatMap] at plain
  obtain ⟨parameters, assigns⟩ := plain
  simp only [lines, List.forall_mem_append, List.forall_mem_singleton]
  constructor
  · simp only [oneLine_append, Parameter.oneLine_renderAll target parameters]
    decide
  · split
    · decide
    · rw [List.forall_mem_map]
      intro name listed
      simp only [oneLine_append, field.oneLine_attribute (assigns name listed), assigns name listed]
      decide

theorem Wrapper.oneLine_lines {w : Wrapper} {target : Option String} {aliases : Aliases}
    (named : aliases.Unbroken) (plain : ∀ s ∈ w.fragments, OneLine s) {ls : List String}
    (written : w.lines target aliases = .ok ls) : ∀ l ∈ ls, OneLine l := by
  simp only [fragments, List.cons_append, List.forall_mem_cons, List.forall_mem_append,
    List.forall_mem_flatMap] at plain
  obtain ⟨name, ⟨⟨_, construction⟩, supertypes⟩, methods⟩ := plain
  obtain ⟨blocks, done, rfl⟩ := exists_of_map_ok (w.lines_eq .. ▸ written)
  have bases : OneLine (", ".intercalate (w.supertypes.map (·.render target))) := by
    refine oneLine_intercalate (by decide) ?_
    rw [List.forall_mem_map]
    exact fun t listed => t.oneLine_render target (supertypes t listed)
  have header : OneLine (w.header target) := by
    have extended : OneLine (if ", ".intercalate (w.supertypes.map (·.render target)) = "" then ""
        else "(" ++ ", ".intercalate (w.supertypes.map (·.render target)) ++ ")") := by
      split
      · exact oneLine_empty
      · simp only [oneLine_append, bases]
        decide
    simp only [Wrapper.header, oneLine_append, name, extended]
    decide
  simp only [opening, List.forall_mem_append, List.forall_mem_singleton, List.forall_mem_flatMap,
    List.forall_mem_cons]
  refine ⟨⟨⟨header, oneLine_classDocRows w.doc⟩, Constructor.oneLine_lines construction⟩, ?_⟩
  intro block among
  obtain ⟨m, listed, lines⟩ := exists_related_left (mapM_ok_iff.mp done) block among
  obtain ⟨signature, body⟩ := methods m listed
  exact ⟨oneLine_empty, Method.oneLine_lines named signature body lines⟩

section Module

variable {target : Option String} {interfaces : List Interface} {wrappers : List Wrapper}
  {scope : Option ScopeProvider}

theorem Aliases.oneLine_choose (plain : ∀ p ∈ scope, OneLine p.name) :
    (Aliases.choose wrappers scope target).Unbroken := by
  have fresh : ∀ name, OneLine name → OneLine (freeName ("_" ++ name) (parameterNames wrappers)) :=
    fun name own => oneLine_freeName (oneLine_append.mpr ⟨by decide, own⟩) _
  simp only [Aliases.Unbroken, choose, List.forall_mem_cons, Option.mem_toList, Option.map_eq_some_iff,
    Option.filter_eq_some_iff]
  refine ⟨fresh _ (by decide), fresh _ (by decide), ?_⟩
  rintro _ ⟨p, ⟨provided, _⟩, rfl⟩
  exact fresh p.name (plain p provided)

theorem oneLine_aliasImport {module name localName : String} (defined : OneLine module)
    (named : OneLine name) (bound : OneLine localName) : OneLine (aliasImport module name localName) := by
  simp only [aliasImport, oneLine_append, defined, named, bound]
  decide

theorem oneLine_aliasImports {aliases : Aliases} (named : aliases.Unbroken)
    (plain : ∀ p ∈ scope, ∀ s ∈ p.fragments, OneLine s) (bodies : List Body) :
    ∀ l ∈ aliasImports aliases bodies target scope, OneLine l := by
  simp only [Aliases.Unbroken, List.forall_mem_cons] at named
  obtain ⟨deferred, stream, imported⟩ := named
  simp only [aliasImports, List.forall_mem_append]
  refine ⟨⟨?_, ?_⟩, ?_⟩
  · split
    · exact List.forall_mem_singleton.mpr (oneLine_aliasImport (by decide) (by decide) deferred)
    · simp
  · split
    · exact List.forall_mem_singleton.mpr (oneLine_aliasImport (by decide) (by decide) stream)
    · simp
  · cases scope with
    | none => simp
    | some p =>
      obtain ⟨own, defining⟩ := List.forall_mem_cons.mp (plain p rfl)
      cases foreign : p.foreignModule target with
      | none => simp [foreign]
      | some module =>
        have defined : p.module = some module := (Option.filter_eq_some_iff.mp foreign).1
        cases chosen : aliases.scope with
        | none => simp
        | some localName =>
          simp only [Option.bind_some, foreign, List.forall_mem_singleton]
          exact oneLine_aliasImport (defining module (by simp [defined])) own
            (imported localName (by simp [chosen]))

theorem oneLine_importLines {modules : List String} (plain : ∀ m ∈ modules, OneLine m) :
    ∀ l ∈ importLines modules, OneLine l := by
  unfold importLines
  split
  · decide
  · exact List.forall_mem_map.mpr fun m listed => oneLine_append.mpr ⟨by decide, plain m listed⟩

theorem TypeRef.oneLine_modules {t : TypeRef} (plain : ∀ s ∈ t.fragments, OneLine s) :
    ∀ m ∈ t.modules, OneLine m := fun m inside => plain m (t.mem_fragments_of_modules inside)

theorem oneLine_annotationModules {t : Option TypeRef} (plain : ∀ s ∈ annotationFragments t, OneLine s) :
    ∀ m ∈ (t.map TypeRef.modules).getD [], OneLine m := by
  cases t with
  | none => simp
  | some t => exact t.oneLine_modules plain

theorem Method.oneLine_modules {m : Method} (plain : ∀ s ∈ m.fragments, OneLine s) :
    ∀ n ∈ m.modules, OneLine n := by
  simp only [fragments, Parameter.fragments, List.cons_append, List.forall_mem_cons, List.forall_mem_append,
    List.forall_mem_flatMap] at plain
  obtain ⟨_, parameters, result⟩ := plain
  simp only [modules, List.forall_mem_append, List.forall_mem_flatMap]
  exact ⟨fun p listed => oneLine_annotationModules (parameters p listed).2.1, oneLine_annotationModules result⟩

theorem Interface.oneLine_modules {i : Interface} (plain : ∀ s ∈ i.fragments, OneLine s) :
    ∀ m ∈ i.modules, OneLine m := by
  simp only [fragments, List.cons_append, List.forall_mem_cons, List.forall_mem_append,
    List.forall_mem_flatMap] at plain
  obtain ⟨_, methods, supertypes⟩ := plain
  simp only [modules, List.forall_mem_append, List.forall_mem_flatMap]
  exact ⟨fun t listed => t.oneLine_modules (supertypes t listed),
    fun m listed => m.oneLine_modules (methods m listed)⟩

theorem Method.oneLine_wrapperModules {m : Method} (plain : ∀ s ∈ m.fragments, OneLine s) :
    ∀ n ∈ m.wrapperModules, OneLine n := by
  simp only [wrapperModules, List.forall_mem_append]
  refine ⟨⟨m.oneLine_modules plain, ?_⟩, ?_⟩
  · split
    · decide
    · simp
  · cases m.body with
    | none => simp
    | some b =>
      cases b with
      | direct => simp [Body.modules]
      | deferred => exact (by decide : ∀ n ∈ deferredWrapper.modules, OneLine n)
      | stream => exact (by decide : ∀ n ∈ streamWrapper.modules, OneLine n)

theorem Wrapper.oneLine_modules {w : Wrapper} (plain : ∀ s ∈ w.fragments, OneLine s) :
    ∀ m ∈ w.modules, OneLine m := by
  simp only [fragments, DelegateField.fragments, List.cons_append, List.forall_mem_cons,
    List.forall_mem_append, List.forall_mem_flatMap] at plain
  obtain ⟨_, _, ⟨⟨field, _⟩, supertypes⟩, methods⟩ := plain
  simp only [modules, List.forall_mem_append, List.forall_mem_flatMap]
  exact ⟨⟨fun t listed => t.oneLine_modules (supertypes t listed), w.delegate.type.oneLine_modules field⟩,
    fun m listed => m.oneLine_wrapperModules (methods m listed).1⟩

/-- No line of a module has a line break that no part of its classes has. -/
theorem oneLine_moduleLines (protocols : ∀ i ∈ interfaces, ∀ s ∈ i.fragments, OneLine s)
    (classes : ∀ w ∈ wrappers, ∀ s ∈ w.fragments, OneLine s)
    (provided : ∀ p ∈ scope, ∀ s ∈ p.fragments, OneLine s) {source : List String}
    (written : moduleLines target interfaces wrappers scope = .ok source) : ∀ l ∈ source, OneLine l := by
  obtain ⟨blocks, done, rfl⟩ := exists_of_map_ok (moduleLines_eq .. ▸ written)
  have named : (Aliases.choose wrappers scope target).Unbroken :=
    Aliases.oneLine_choose fun p own => provided p own p.name List.mem_cons_self
  have imported : ∀ m ∈ importedModules target interfaces wrappers, OneLine m := by
    intro m member
    rcases (mem_importedModules.mp member).1 with rfl | ⟨i, listed, inside⟩ | ⟨w, listed, inside⟩
    · decide
    · exact i.oneLine_modules (protocols i listed) m inside
    · exact w.oneLine_modules (classes w listed) m inside
  have spaced : ∀ ls : List String, (∀ l ∈ ls, OneLine l) → ∀ l ∈ setOff ls, OneLine l := by
    intro ls each
    simp only [setOff, List.forall_mem_cons]
    exact ⟨oneLine_empty, oneLine_empty, each⟩
  simp only [List.forall_mem_append, List.forall_mem_flatMap]
  refine ⟨⟨⟨⟨by decide, oneLine_importLines imported⟩, ?_⟩, ?_⟩, ?_⟩
  · split
    · simp
    · exact List.forall_mem_cons.mpr ⟨oneLine_empty, oneLine_aliasImports named provided _⟩
  · exact fun i listed => spaced _ (i.oneLine_rows (protocols i listed))
  · intro block among
    obtain ⟨w, listed, lines⟩ := exists_related_left (mapM_ok_iff.mp done) block among
    exact spaced _ (w.oneLine_lines named (classes w listed) lines)

theorem ended_of_moduleLines {source : List String}
    (written : moduleLines target interfaces wrappers scope = .ok source) :
    Text.joinLines source ++ "\n" = Text.ended source := by
  obtain ⟨blocks, _, rfl⟩ := exists_of_map_ok (moduleLines_eq .. ▸ written)
  exact Text.joinLines_eq_ended (by simp [prologue])

end Module

end SyncFacade
