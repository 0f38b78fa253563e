import SyncFacade.Function
import SyncFacade.Proofs.Alias.Capture
import SyncFacade.Proofs.Mirror
import SyncFacade.Proofs.Source.Declarations

/-! The names that the signatures in generated source declare. A description leaves the receiver of a method out, and
writing puts one in again, always under the same name. A parameter that has this name as well is then declared twice. -/
namespace SyncFacade

/-- The name in an item of a parameter list, behind its stars. A separator has none. -/
def itemName? (item : List Char) : Option String :=
  match ((Text.trimLeft item).dropWhile (· = '*')).takeWhile Text.isIdentifierChar with
  | [] => none
  | name => some (String.ofList name)

/-- The names that a signature declares: those between its first parenthesis and the one that closes it. -/
def declaredNames? (line : String) : Option (List String) :=
  match line.toList.dropWhile (· ≠ '(') with
  | '(' :: cs => match Text.outerPieces true [] cs with
    | (items, ')' :: _) => some (items.filterMap itemName?)
    | _ => none
  | _ => none

example : declaredNames? "def f(self, a: M[k, v] = ')', *, b = g(1, 2)):" = some ["self", "a", "b"] := by decide

/-- A signature can be read: the name of the method opens no parenthesis, its parameters have names, and what is written
for types and defaults closes all that it opens. -/
structure Method.Legible (m : Method) : Prop where
  name : '(' ∉ m.name.toList
  identifiers : ∀ p ∈ m.parameters, Text.isIdentifier p.name.toList = true
  enclosed : ∀ p ∈ m.parameters, ∀ s ∈ p.fragments, Text.Enclosed true s.toList

instance (m : Method) : Decidable m.Legible :=
  decidable_of_iff (_ ∧ _ ∧ _) ⟨fun ⟨name, identifiers, enclosed⟩ => ⟨name, identifiers, enclosed⟩,
    fun l => ⟨l.name, l.identifiers, l.enclosed⟩⟩

section Items

variable {p : Parameter} {ps : List Parameter} {target : Option String}

/-- What is written behind a name does not continue it. -/
theorem exists_declaration_tail (target : Option String) (p : Parameter) :
    ∃ tail, (p.declaration target).toList = (ListItem.stars p.kind).toList ++ (p.name.toList ++ tail) ∧
      tail.takeWhile Text.isIdentifierChar = [] := by
  obtain ⟨name, type, kind, default⟩ := p
  rw [Parameter.declaration_eq]
  cases type with
  | none =>
    cases default with
    | none => exact ⟨[], by simp [Parameter.binding, Binding.text], rfl⟩
    | some d => exact ⟨" = ".toList ++ d.toList, by simp [Parameter.binding, Binding.text], rfl⟩
  | some t => exact ⟨": ".toList ++ _, by simp [Parameter.binding, Binding.text]; rfl, rfl⟩

theorem itemName?_declaration (name : Text.isIdentifier p.name.toList = true) (target : Option String) :
    itemName? (' ' :: (p.declaration target).toList) = some p.name := by
  obtain ⟨tail, spelled, ends⟩ := exists_declaration_tail target p
  obtain ⟨c, cs, begins, allowed⟩ := Text.exists_cons_of_isIdentifier name
  have noStar : c ≠ '*' := Text.ne_of_isIdentifierChar allowed rfl
  have trimmed : Text.trimLeft (' ' :: (p.declaration target).toList) = (p.declaration target).toList :=
    (Parameter.unindented_declaration name target).trimLeft
  have unstarred : (p.declaration target).toList.dropWhile (· = '*') = p.name.toList ++ tail := by
    rw [spelled, begins]
    cases p.kind <;> simp [ListItem.stars, noStar]
  have whole : (p.name.toList ++ tail).takeWhile Text.isIdentifierChar = p.name.toList := by
    rw [List.takeWhile_append_of_pos (List.all_eq_true.mp (Bool.and_eq_true_iff.mp name).2), ends, List.append_nil]
  rw [itemName?, trimmed, unstarred, whole, begins]
  exact congrArg some (begins ▸ String.ofList_toList)

theorem filterMap_itemName? (names : ∀ p ∈ ps, Text.isIdentifier p.name.toList = true) (target : Option String)
    (starred : Bool) :
    ((Parameter.items target starred ps).map fun item => ' ' :: item.toList).filterMap itemName? =
      ps.map Parameter.name := by
  induction ps generalizing starred with
  | nil => rfl
  | cons p ps ih =>
    obtain ⟨here, later⟩ := List.forall_mem_cons.mp names
    have star : itemName? (' ' :: "*".toList) = none := by decide
    have slash : itemName? (' ' :: "/".toList) = none := by decide
    have mark : ∀ (b : Bool) (m : String), itemName? (' ' :: m.toList) = none →
        ((if b then [m] else []).map fun item => ' ' :: item.toList).filterMap itemName? = [] := by
      intro b m unnamed
      cases b <;> simp [unnamed]
    rw [Parameter.items, List.map_append, List.map_append, List.map_append, List.filterMap_append,
      List.filterMap_append, List.filterMap_append, mark _ "*" star, mark _ "/" slash, ih later]
    simp [itemName?_declaration here]

/-- What stands between the parentheses of a signature: the receiver, and the items of the parameter list. -/
def signatureItems (target : Option String) (ps : List Parameter) : List (List Char) :=
  "self".toList :: (Parameter.items target false ps).map String.toList

/-- The receiver and the parameters behind the parenthesis that a signature opens. -/
def parametersText (target : Option String) (ps : List Parameter) : String :=
  "(self" ++ if Parameter.renderAll target ps = "" then "" else ", " ++ Parameter.renderAll target ps

theorem toList_parametersText (names : ∀ p ∈ ps, Text.isIdentifier p.name.toList = true) (target : Option String) :
    (parametersText target ps).toList = '(' :: [',', ' '].intercalate (signatureItems target ps) := by
  have starts : ∀ item ∈ Parameter.items target false ps, Declaration.Unindented item :=
    Parameter.forall_mem_items ⟨'*', [], rfl, rfl⟩ ⟨'/', [], rfl, rfl⟩
      (fun p member => Parameter.unindented_declaration (names p member) target) false
  rw [parametersText, Parameter.renderAll, signatureItems]
  cases items : Parameter.items target false ps with
  | nil => rfl
  | cons first further =>
    rw [items] at starts
    rw [if_neg ((starts first List.mem_cons_self).intercalate_ne_empty further), List.map_cons,
      List.intercalate_cons_cons]
    simp

end Items

theorem enclosed_signatureItems {m : Method} (legible : m.Legible) (target : Option String) :
    ∀ item ∈ signatureItems target m.parameters, Text.Enclosed true item := by
  rw [signatureItems, List.forall_mem_cons, List.forall_mem_map]
  exact ⟨by decide, Parameter.forall_mem_items (Q := fun item => Text.Enclosed true item.toList) (by decide) (by decide)
    (fun p member => Parameter.enclosed_declaration (legible.enclosed p member)) false⟩

theorem exists_header_tail {m : Method} (legible : m.Legible) (target : Option String) :
    ∃ rest, (m.header target).toList = "def ".toList ++ m.name.toList ++
      '(' :: ([',', ' '].intercalate (signatureItems target m.parameters) ++ ')' :: rest) := by
  obtain ⟨tail, header⟩ : ∃ tail, m.header target =
      "def " ++ m.name ++ parametersText target m.parameters ++ (")" ++ tail) :=
    ⟨_, by simp only [Method.header, parametersText, String.append_assoc]; rfl⟩
  exact ⟨tail.toList, by simp [header, toList_parametersText legible.identifiers]⟩

/-- The first parenthesis of a line with a signature is the one that the signature opens. -/
theorem exists_dropWhile_header {m : Method} (legible : m.Legible) (target : Option String) {before : String}
    (plain : '(' ∉ before.toList) (behind : String) :
    ∃ rest, (before ++ m.header target ++ behind).toList.dropWhile (· ≠ '(') =
      '(' :: ([',', ' '].intercalate (signatureItems target m.parameters) ++ ')' :: rest) := by
  obtain ⟨rest, spelled⟩ := exists_header_tail legible target
  have free : '(' ∉ before.toList ++ ("def ".toList ++ m.name.toList) := by
    simp [plain, legible.name]
  have skipped : ∀ c ∈ before.toList ++ ("def ".toList ++ m.name.toList), decide (c ≠ '(') = true :=
    fun c member => decide_eq_true (ne_of_mem_of_not_mem member free)
  have whole : (before ++ m.header target ++ behind).toList = before.toList ++ ("def ".toList ++ m.name.toList) ++
      '(' :: ([',', ' '].intercalate (signatureItems target m.parameters) ++ ')' :: (rest ++ behind.toList)) := by
    rw [String.toList_append, String.toList_append, spelled]
    simp only [List.append_assoc, List.cons_append]
  refine ⟨rest ++ behind.toList, ?_⟩
  rw [whole, List.dropWhile_append_of_pos skipped]
  rfl

/-- Whatever stands around a signature, it declares the receiver and the parameters. -/
theorem declaredNames?_header {m : Method} (legible : m.Legible) (target : Option String) {before : String}
    (plain : '(' ∉ before.toList) (behind : String) :
    declaredNames? (before ++ m.header target ++ behind) = some m.boundNames := by
  obtain ⟨rest, opened⟩ := exists_dropWhile_header legible target plain behind
  have ends : Text.outerPieces true [] (')' :: rest) = ([[]], ')' :: rest) := rfl
  have pieces := Text.outerPieces_intercalate ends (enclosed_signatureItems legible target)
  have receiver : itemName? "self".toList = some "self" := by decide
  have names := filterMap_itemName? legible.identifiers target false
  rw [declaredNames?, opened]
  simp only [signatureItems, pieces, List.map_map, Function.comp_def, List.filterMap_cons, receiver, names,
    Method.boundNames]

theorem indent_plain : '(' ∉ indent.toList := by decide

theorem declaredNames?_indented {m : Method} (legible : m.Legible) (target : Option String) :
    declaredNames? (indent ++ m.header target) = some m.boundNames := by
  simpa only [String.append_empty] using declaredNames?_header legible target indent_plain ""

/-- The signatures in the text of a wrapper: that of its constructor, then those of its methods. -/
def Wrapper.signatureLines (w : Wrapper) (target : Option String) : List String :=
  (indent ++ "def __init__(self, " ++ Parameter.renderAll target w.constructor.parameters ++ "):") ::
    w.methods.map fun m => indent ++ m.header target

theorem Method.header_mem {m : Method} {field : DelegateField} {target : Option String} {aliases : Aliases}
    {block : List String} (written : m.lines field target aliases = .ok block) : indent ++ m.header target ∈ block := by
  obtain ⟨body, -, rfl⟩ := exists_of_map_ok (m.lines_eq .. ▸ written)
  simp

/-- The signatures of the methods stand in the blocks of lines that the methods are written as, in their order. -/
theorem headers_sublist {ms : List Method} {field : DelegateField} {target : Option String} {aliases : Aliases}
    {blocks : List (List String)}
    (written : List.Forall₂ (fun m block => m.lines field target aliases = .ok block) ms blocks) :
    (ms.map fun m => indent ++ m.header target).Sublist (blocks.flatMap fun block => "" :: block) := by
  induction written with
  | nil => exact .slnil
  | cons first _ ih =>
    rw [List.map_cons, List.flatMap_cons, ← List.singleton_append]
    exact ((List.singleton_sublist.mpr (Method.header_mem first)).trans (List.sublist_cons_self "" _)).append ih

theorem Wrapper.signatureLines_sublist {w : Wrapper} {target : Option String} {aliases : Aliases} {ls : List String}
    (written : w.lines target aliases = .ok ls) : (w.signatureLines target).Sublist ls := by
  obtain ⟨blocks, done, rfl⟩ := exists_of_map_ok (w.lines_eq .. ▸ written)
  have construction : [indent ++ "def __init__(self, " ++ Parameter.renderAll target w.constructor.parameters ++
      "):"].Sublist (w.opening target) := by
    refine List.singleton_sublist.mpr (List.mem_append_right _ ?_)
    exact List.mem_append_left _ (List.mem_singleton.mpr rfl)
  exact construction.append (headers_sublist (mapM_ok_iff.mp done))

theorem Interface.methodLines_sublist (i : Interface) (target : Option String) :
    ∃ ls, i.lines target = .ok ls ∧ (i.methodLines target).Sublist ls :=
  ⟨_, i.lines_eq target, List.sublist_append_right ..⟩

section Compiled

variable {c : ClassInfo} {context : Context} {w : Wrapper}

theorem Method.Legible.declared {m : Method} (legible : m.Legible) : m.declared.Legible :=
  ⟨legible.name, legible.identifiers, legible.enclosed⟩

theorem declaredNames?_methodLines (legible : ∀ m ∈ c.methods, m.Legible) (t : TypeRef) (doc : Option String)
    (target : Option String) :
    (((c.deriveInterface t).interface doc).methodLines target).map declaredNames? =
      c.methods.map fun m => some m.boundNames := by
  have methods : ((c.deriveInterface t).interface doc).methods = c.methods.map Method.declared := rfl
  rw [Interface.methodLines, methods, List.map_map, List.map_map]
  refine List.map_congr_left fun m member => ?_
  have same : m.declared.boundNames = m.boundNames := rfl
  simp only [Function.comp_apply, declaredNames?_header (legible m member).declared target indent_plain, same]

/-- A constructor is written like a method without a result. -/
def Constructor.method (k : Constructor) : Method := { name := "__init__", parameters := k.parameters }

theorem Constructor.header_method (k : Constructor) {target : Option String}
    (some_text : Parameter.renderAll target k.parameters ≠ "") :
    k.method.header target = "def __init__(self, " ++ Parameter.renderAll target k.parameters ++ "):" := by
  apply String.toList_injective
  simp [Method.header, method, some_text]

def delegateParameter (c : ClassInfo) : Parameter := { name := "wrapped", type := some c.type }

theorem WrapsClass.parameters_constructor (wraps : WrapsClass c context w) :
    w.constructor.parameters = [delegateParameter c] := by
  rw [wraps.construction]
  rfl

theorem isIdentifier_delegateParameter (c : ClassInfo) :
    Text.isIdentifier (delegateParameter c).name.toList = true := by
  have name : Text.isIdentifier "wrapped".toList = true := by decide
  exact name

theorem WrapsClass.legible_constructor (wraps : WrapsClass c context w)
    (named : ∀ s ∈ c.type.fragments, Text.Enclosed true s.toList) : w.constructor.method.Legible := by
  have parameters : w.constructor.method.parameters = [delegateParameter c] := wraps.parameters_constructor
  have fragments : (delegateParameter c).fragments = "wrapped" :: c.type.fragments := by
    simp [delegateParameter, Parameter.fragments, annotationFragments]
  refine ⟨by simp [Constructor.method], ?_, ?_⟩
  · rw [parameters, List.forall_mem_singleton]
    exact isIdentifier_delegateParameter c
  · rw [parameters, List.forall_mem_singleton, fragments, List.forall_mem_cons]
    exact ⟨by decide, named⟩

theorem WrapsClass.declaredNames?_constructor (wraps : WrapsClass c context w)
    (named : ∀ s ∈ c.type.fragments, Text.Enclosed true s.toList) (target : Option String) :
    declaredNames? (indent ++ "def __init__(self, " ++ Parameter.renderAll target w.constructor.parameters ++ "):") =
      some ["self", "wrapped"] := by
  have some_text : Parameter.renderAll target w.constructor.parameters ≠ "" := by
    have single : Parameter.items target false [delegateParameter c] = [(delegateParameter c).declaration target] := rfl
    rw [wraps.parameters_constructor, Parameter.renderAll, single]
    exact (Parameter.unindented_declaration (isIdentifier_delegateParameter c) target).intercalate_ne_empty []
  have read := declaredNames?_indented (wraps.legible_constructor named) target
  have names : w.constructor.method.boundNames = ["self", "wrapped"] := by
    rw [Method.boundNames, Constructor.method, wraps.parameters_constructor]
    rfl
  rw [w.constructor.header_method some_text, names] at read
  simpa [String.append_assoc] using read

theorem WrapsClass.declaredNames?_signatureLines (wraps : WrapsClass c context w)
    (named : ∀ s ∈ c.type.fragments, Text.Enclosed true s.toList) (legible : ∀ m ∈ c.methods, m.Legible)
    (target : Option String) :
    (w.signatureLines target).map declaredNames? =
      some ["self", "wrapped"] :: c.methods.map fun m => some m.boundNames := by
  have methods : (w.methods.map fun m => indent ++ m.header target).map declaredNames? =
      c.methods.map fun m => some m.boundNames := by
    rw [List.map_map]
    refine (map_eq_map_of_related (related_imp (fun m member n _ method => ?_) wraps.methods)).symm
    have same : m.declared.boundNames = m.boundNames := rfl
    simp only [Function.comp_apply, method.header, declaredNames?_indented (legible m member).declared target, same]
  rw [Wrapper.signatureLines, List.map_cons, wraps.declaredNames?_constructor named, methods]

/-- Every signature that is made from a class declares its receiver and its parameters. No name is declared twice
exactly when no parameter is called as the receiver is. -/
theorem signatures_distinct_iff (compiled : (c.compile context).outcome = .ok w)
    (named : ∀ s ∈ c.type.fragments, Text.Enclosed true s.toList) (legible : ∀ m ∈ c.methods, m.Legible)
    (distinct : ∀ m ∈ c.methods, (m.parameters.map Parameter.name).Nodup)
    (t : TypeRef) (doc target : Option String) (aliases : Aliases) :
    ∃ source protocol, w.lines target aliases = .ok source ∧
      (w.signatureLines target).Sublist source ∧
      ((c.deriveInterface t).interface doc).lines target = .ok protocol ∧
      (((c.deriveInterface t).interface doc).methodLines target).Sublist protocol ∧
      (w.signatureLines target).map declaredNames? =
        some ["self", "wrapped"] :: c.methods.map (fun m => some m.boundNames) ∧
      (((c.deriveInterface t).interface doc).methodLines target).map declaredNames? =
        c.methods.map (fun m => some m.boundNames) ∧
      ((∀ line ∈ w.signatureLines target ++ ((c.deriveInterface t).interface doc).methodLines target,
          ∃ names, declaredNames? line = some names ∧ names.Nodup) ↔
        ∀ m ∈ c.methods, "self" ∉ m.parameters.map Parameter.name) := by
  have wraps := wrapsClass_of_compile compiled
  obtain ⟨source, written⟩ := w.exists_lines target aliases wraps.exists_body
  have signatures := wraps.declaredNames?_signatureLines named legible target
  have declarations := declaredNames?_methodLines legible t doc target
  obtain ⟨protocol, declared, within⟩ := ((c.deriveInterface t).interface doc).methodLines_sublist target
  refine ⟨source, protocol, written, Wrapper.signatureLines_sublist written, declared, within, signatures,
    declarations, ?_⟩
  have own : ["self", "wrapped"].Nodup := by decide
  have once : ∀ m ∈ c.methods, (m.boundNames.Nodup ↔ "self" ∉ m.parameters.map Parameter.name) := fun m member =>
    List.nodup_cons.trans (and_iff_left (distinct m member))
  rw [← List.forall_mem_map (f := declaredNames?) (P := fun read => ∃ names, read = some names ∧ names.Nodup),
    List.map_append, signatures, declarations, List.cons_append, List.forall_mem_cons, List.forall_mem_append,
    List.forall_mem_map]
  simp only [Option.some.injEq, exists_eq_left', own, true_and, and_self]
  exact forall₂_congr once

end Compiled

theorem reader_signatures_distinct :
    (∀ s ∈ streamingReader.type.fragments, Text.Enclosed true s.toList) ∧
      (∀ m ∈ streamingReader.methods, m.Legible) ∧
      (∀ m ∈ streamingReader.methods, (m.parameters.map Parameter.name).Nodup) ∧
      ∃ w, (streamingReader.compile readerContext).outcome = .ok w ∧
        (w.signatureLines (some "app.wrappers")).map declaredNames? =
          [some ["self", "wrapped"], some ["self", "path"], some ["self", "limit"]] ∧
        ∀ line ∈ w.signatureLines (some "app.wrappers") ++
            ((streamingReader.deriveInterface readerInterface).interface none).methodLines (some "app.wrappers"),
          ∃ names, declaredNames? line = some names ∧ names.Nodup := by
  have named : ∀ s ∈ streamingReader.type.fragments, Text.Enclosed true s.toList := by decide
  have legible : ∀ m ∈ streamingReader.methods, m.Legible := by decide
  have distinct : ∀ m ∈ streamingReader.methods, (m.parameters.map Parameter.name).Nodup := by decide
  have apart : ∀ m ∈ streamingReader.methods, "self" ∉ m.parameters.map Parameter.name := by decide
  obtain ⟨w, compiled⟩ : ∃ w, (streamingReader.compile readerContext).outcome = .ok w := ⟨_, rfl⟩
  obtain ⟨_, _, _, _, _, _, signatures, _, once⟩ := signatures_distinct_iff compiled named legible distinct
    readerInterface none (some "app.wrappers")
    { deferredWrapper := "_DeferredWrapper", streamWrapper := "_StreamWrapper" }
  exact ⟨named, legible, distinct, w, compiled, signatures, once.mpr apart⟩

/-- A function whose receiver has another name, which is given to a parameter. -/
def rebound : Function := { name := "run", parameters := [{ name := "this" }, { name := "self" }] }

theorem receiver_declared_twice :
    ∃ m w source, (rebound.describe rebound.names "Task.run" none).outcome = .ok m ∧
      (m.parameters.map Parameter.name).Nodup ∧
      (({ name := "Task", methods := [m] } : ClassInfo).compile { wrapperName := "TaskWrapper" }).outcome = .ok w ∧
      w.lines none { deferredWrapper := "_DeferredWrapper", streamWrapper := "_StreamWrapper" } = .ok source ∧
      "    def run(self, self):" ∈ source ∧
      ∃ names, declaredNames? "    def run(self, self):" = some names ∧ ¬ names.Nodup :=
  ⟨_, _, _, rfl, by decide, rfl, rfl, by decide, ["self", "self"], by decide, by decide⟩

end SyncFacade
