import SyncFacade.Source.Parameters
import SyncFacade.Proofs.Source.Fragments
import SyncFacade.Proofs.Source.ParameterList

/-! Parameter lists as they are written. What is written for a signature is read as that signature, as long as its
texts have no mark of the notation in them. -/
namespace SyncFacade

theorem TypeRef.kept_enclosed (quotes : Bool) : KeptByNotation (Text.Enclosed quotes) where
  dot := by cases quotes <;> decide
  append := .append
  bracketed := .bracketed

namespace Parameter

def binding (target : Option String) (p : Parameter) : Binding := ⟨p.name, p.type.map (·.render target), p.default⟩

/-- What the text of a parameter list has to declare for a parameter. -/
def declared (target : Option String) (p : Parameter) : Declaration := ⟨p.binding target, p.kind⟩

/-- None of the texts in a parameter is mistaken for more: the name is one, modules and names of types consist of
names and dots, and the default has no mark of a parameter list in it. -/
structure Readable (p : Parameter) : Prop where
  name : Text.isIdentifier p.name.toList = true
  type : ∀ s ∈ annotationFragments p.type, Text.Dotted s.toList
  default : ∀ d ∈ p.default, Text.Unmarked d.toList

instance (p : Parameter) : Decidable p.Readable :=
  decidable_of_iff (_ ∧ _ ∧ _) ⟨fun ⟨name, type, default⟩ => ⟨name, type, default⟩,
    fun r => ⟨r.name, r.type, r.default⟩⟩

variable {target : Option String} {p : Parameter} {ps : List Parameter}

theorem declaration_eq (target : Option String) (p : Parameter) :
    p.declaration target = ListItem.stars p.kind ++ (p.binding target).text := by
  obtain ⟨name, type, kind, default⟩ := p
  cases kind <;> cases type <;> cases default <;>
    simp [declaration, markedName, ListItem.stars, Binding.text, binding, String.append_assoc]

theorem enclosed_declaration {quotes : Bool} (enclosed : ∀ s ∈ p.fragments, Text.Enclosed quotes s.toList) :
    Text.Enclosed quotes (p.declaration target).toList := by
  simp only [fragments, List.cons_append, List.forall_mem_cons, List.forall_mem_append, Option.mem_toList] at enclosed
  obtain ⟨name, type, default⟩ := enclosed
  have plain : ∀ s ∈ ["", "*", "**", ": ", " = "], Text.Enclosed quotes s.toList := by cases quotes <;> decide
  simp only [List.forall_mem_cons] at plain
  obtain ⟨empty, star, stars, colon, equals, -⟩ := plain
  have marked : Text.Enclosed quotes p.markedName.toList := by
    unfold markedName
    split
    · exact String.toList_append ▸ star.append name
    · exact String.toList_append ▸ stars.append name
    · exact name
  simp only [declaration, String.toList_append]
  refine (marked.append ?_).append ?_
  · cases typed : p.type with
    | none => exact empty
    | some t =>
      rw [typed] at type
      exact String.toList_append ▸ colon.append ((TypeRef.kept_enclosed quotes).render target t type)
  · cases given : p.default with
    | none => exact empty
    | some d => exact String.toList_append ▸ equals.append (default d given)

theorem plain_binding (readable : p.Readable) (target : Option String) : (p.binding target).Plain := by
  refine ⟨readable.name, ?_, fun d given => fun member => (readable.default d given '=' member).2.2.2 rfl⟩
  intro text typed
  obtain ⟨t, some_t, rfl⟩ := Option.map_eq_some_iff.mp typed
  have free : ∀ c : Char, Text.isIdentifierChar c = false → c ≠ '.' → ∀ s ∈ t.fragments, c ∉ s.toList := by
    intro c mark notDot s member inside
    have fragment : s ∈ annotationFragments p.type := by simpa [annotationFragments, some_t] using member
    rcases readable.type s fragment c inside with allowed | dot
    · exact Text.ne_of_isIdentifierChar allowed mark rfl
    · exact notDot dot
  exact ⟨(TypeRef.kept_free (by decide)).render target t (free '=' rfl (by decide)),
    (TypeRef.kept_free (by decide)).render target t (free ':' rfl (by decide))⟩

theorem enclosed_fragments (quotes : Bool) (readable : p.Readable)
    (default : ∀ d ∈ p.default, Text.Enclosed quotes d.toList) :
    ∀ s ∈ p.fragments, Text.Enclosed quotes s.toList := by
  simp only [fragments, List.cons_append, List.forall_mem_cons, List.forall_mem_append, Option.mem_toList]
  have name := (Bool.and_eq_true_iff.mp readable.name).2
  have dotted : Text.Dotted p.name.toList := fun c member => .inl (List.all_eq_true.mp name c member)
  exact ⟨dotted.enclosed quotes, fun s member => (readable.type s member).enclosed quotes, default⟩

theorem read?_declaration (readable : p.Readable) (target : Option String) :
    ListItem.read? (p.declaration target) = some (.ofKind p.kind (p.binding target)) := by
  rw [declaration_eq, ListItem.read?_ofKind (plain_binding readable target)]

section Reading

open Declaration

theorem mapM_declaration_cons (readable : p.Readable) {parts : List String} {later : List ListItem}
    (read : parts.mapM ListItem.read? = some later) :
    (p.declaration target :: parts).mapM ListItem.read? = some (.ofKind p.kind (p.binding target) :: later) :=
  ListItem.mapM_cons (read?_declaration readable target) read

/-- Nothing can follow a parameter that takes all further keywords. -/
theorem eq_nil_of_extraKeyword (kind : p.kind = .extraKeyword)
    (after : ∀ q ∈ ps, p.kind.MayPrecede q.kind) : ps = [] :=
  List.eq_nil_iff_forall_not_mem.mpr fun q member =>
    ParameterKind.not_mayPrecede_of_extraKeyword (kind ▸ after q member)

/-- What follows another parameter than a positional-only one is none either. -/
theorem named_of_first (kind : p.kind ≠ .positionalOnly) (after : ∀ q ∈ ps, p.kind.MayPrecede q.kind) :
    ∀ q ∈ p :: ps, q.kind ≠ .positionalOnly :=
  List.forall_mem_cons.mpr ⟨kind, fun q member same =>
    kind (ParameterKind.positionalOnly_of_mayPrecede (same ▸ after q member))⟩

theorem items_positionalOnly (kind : p.kind = .positionalOnly) (target : Option String) (ps : List Parameter) :
    items target false (p :: ps) = p.declaration target ::
      ((if ps.head?.all (·.kind ≠ .positionalOnly) then ["/"] else []) ++ items target false ps) := by
  simp [items, kind]

/-- Behind a star, all parameters take their values by keyword, and no other star is written. -/
theorem readKeywords_items (target : Option String) (readable : ∀ p ∈ ps, p.Readable)
    (ordered : ps.Pairwise fun p q => p.kind.MayPrecede q.kind) (keywords : ∀ p ∈ ps, 3 ≤ p.kind.rank) :
    ∃ is, (items target true ps).mapM ListItem.read? = some is ∧
      readKeywords is = some (ps.map (declared target)) := by
  induction ps with
  | nil => exact ⟨[], rfl, rfl⟩
  | cons p ps ih =>
    obtain ⟨here, later⟩ := List.forall_mem_cons.mp readable
    obtain ⟨after, orderedLater⟩ := List.pairwise_cons.mp ordered
    obtain ⟨late, lateLater⟩ := List.forall_mem_cons.mp keywords
    obtain ⟨is, read, declares⟩ := ih later orderedLater lateLater
    have shown : items target true (p :: ps) = p.declaration target :: items target true ps := by
      cases kind : p.kind <;> simp_all [items, ParameterKind.rank]
    refine ⟨_, shown ▸ mapM_declaration_cons here read, ?_⟩
    cases kind : p.kind with
    | keywordOnly => simp [ListItem.ofKind, readKeywords, declares, declared, kind]
    | extraKeyword =>
      obtain rfl := eq_nil_of_extraKeyword kind after
      cases read
      simp [ListItem.ofKind, readKeywords, declared, kind]
    | positionalOnly | positionalOrKeyword | extraPositional => simp [kind, ParameterKind.rank] at late

/-- Without positional-only parameters, a star is written for the first keyword-only one, unless one stands there. -/
theorem readNamed_items (target : Option String) (readable : ∀ p ∈ ps, p.Readable)
    (ordered : ps.Pairwise fun p q => p.kind.MayPrecede q.kind) (named : ∀ p ∈ ps, p.kind ≠ .positionalOnly) :
    ∃ is, (items target false ps).mapM ListItem.read? = some is ∧
      readNamed is = some (ps.map (declared target)) := by
  induction ps with
  | nil => exact ⟨[], rfl, rfl⟩
  | cons p ps ih =>
    obtain ⟨here, later⟩ := List.forall_mem_cons.mp readable
    obtain ⟨after, orderedLater⟩ := List.pairwise_cons.mp ordered
    obtain ⟨notFirst, namedLater⟩ := List.forall_mem_cons.mp named
    have starred : 2 ≤ p.kind.rank → ∃ is, (items target true ps).mapM ListItem.read? = some is ∧
        readKeywords is = some (ps.map (declared target)) := fun rank =>
      readKeywords_items target later orderedLater fun q member =>
        ParameterKind.late_of_mayPrecede (after q member) rank
    cases kind : p.kind with
    | positionalOnly => contradiction
    | positionalOrKeyword =>
      obtain ⟨is, read, declares⟩ := ih later orderedLater namedLater
      have shown : items target false (p :: ps) = p.declaration target :: items target false ps := by simp [items, kind]
      refine ⟨_, shown ▸ mapM_declaration_cons here read, ?_⟩
      simp [ListItem.ofKind, readNamed, declares, declared, kind]
    | extraPositional =>
      obtain ⟨is, read, declares⟩ := starred (by rw [kind]; decide)
      have shown : items target false (p :: ps) = p.declaration target :: items target true ps := by simp [items, kind]
      refine ⟨_, shown ▸ mapM_declaration_cons here read, ?_⟩
      simp [ListItem.ofKind, readNamed, declares, declared, kind]
    | keywordOnly =>
      obtain ⟨is, read, declares⟩ := starred (by rw [kind]; decide)
      have shown : items target false (p :: ps) = "*" :: p.declaration target :: items target true ps := by
        simp [items, kind]
      refine ⟨_, shown ▸ ListItem.mapM_cons rfl (mapM_declaration_cons here read), ?_⟩
      simp [ListItem.ofKind, readNamed, readKeywords, declares, declared, kind]
    | extraKeyword =>
      obtain rfl := eq_nil_of_extraKeyword kind after
      refine ⟨[.mapping (p.binding target)], ?_, by simp [readNamed, declared, kind]⟩
      have shown : items target false [p] = [p.declaration target] := by simp [items, kind]
      rw [shown, List.mapM_cons, read?_declaration here, kind]
      rfl

/-- Behind a positional-only parameter, the slash is written where the first other one follows, or in the end. -/
theorem readPositional_items (target : Option String) (readable : ∀ p ∈ ps, p.Readable)
    (ordered : ps.Pairwise fun p q => p.kind.MayPrecede q.kind) :
    ∃ is, ((if ps.head?.all (·.kind ≠ .positionalOnly) then ["/"] else []) ++ items target false ps).mapM
        ListItem.read? = some is ∧ .slash ∈ is ∧ readPositional is = some (ps.map (declared target)) := by
  induction ps with
  | nil => exact ⟨[.slash], rfl, List.mem_cons_self, rfl⟩
  | cons p ps ih =>
    obtain ⟨here, later⟩ := List.forall_mem_cons.mp readable
    obtain ⟨after, orderedLater⟩ := List.pairwise_cons.mp ordered
    by_cases kind : p.kind = .positionalOnly
    · obtain ⟨is, read, slash, declares⟩ := ih later orderedLater
      refine ⟨.single (p.binding target) :: is, ?_, List.mem_cons_of_mem _ slash, ?_⟩
      · rw [items_positionalOnly kind]
        simpa [kind, ListItem.ofKind] using mapM_declaration_cons here read
      · simp [readPositional, declares, declared, kind]
    · obtain ⟨is, read, declares⟩ := readNamed_items target readable ordered (named_of_first kind after)
      refine ⟨.slash :: is, ?_, List.mem_cons_self, declares⟩
      have slash : ListItem.read? "/" = some .slash := rfl
      simpa [kind] using ListItem.mapM_cons slash read

theorem readParts?_items (readable : ∀ p ∈ ps, p.Readable)
    (ordered : ps.Pairwise fun p q => p.kind.MayPrecede q.kind) (target : Option String) :
    readParts? (items target false ps) = some (ps.map (declared target)) := by
  cases ps with
  | nil => rfl
  | cons p ps =>
    obtain ⟨here, later⟩ := List.forall_mem_cons.mp readable
    obtain ⟨after, orderedLater⟩ := List.pairwise_cons.mp ordered
    by_cases kind : p.kind = .positionalOnly
    · obtain ⟨is, read, slash, declares⟩ := readPositional_items target later orderedLater
      rw [readParts?, items_positionalOnly kind, mapM_declaration_cons here read, Option.bind_some, kind]
      simp [ListItem.ofKind, readItems, slash, declares, declared, kind]
    · have named := named_of_first kind after
      obtain ⟨is, read, declares⟩ := readNamed_items target readable ordered named
      rw [readParts?, read, Option.bind_some, readItems_eq_readNamed declares, declares]

theorem unindented_declaration (name : Text.isIdentifier p.name.toList = true) (target : Option String) :
    Unindented (p.declaration target) := by
  obtain ⟨c, cs, spelled, allowed⟩ := ListItem.exists_cons_text (b := p.binding target) name
  have nonblank := Text.isBlank_of_isIdentifierChar allowed
  rw [declaration_eq]
  cases kind : p.kind
  case extraPositional | extraKeyword => exact ⟨'*', _, by simp [ListItem.stars]; rfl, rfl⟩
  all_goals exact ⟨c, cs, by simp [ListItem.stars, spelled], nonblank⟩

theorem parts?_renderAll (readable : ∀ p ∈ ps, p.Readable) (target : Option String) :
    parts? (renderAll target ps) = some (items target false ps) := by
  refine parts?_intercalate (forall_mem_items (by decide) (by decide) (fun p member => ?_) false)
    (forall_mem_items ⟨'*', [], rfl, rfl⟩ ⟨'/', [], rfl, rfl⟩ (fun p member => ?_) false)
  · refine enclosed_declaration (enclosed_fragments false (readable p member) fun d given => ?_)
    refine .of_plain fun c inside => ?_
    obtain ⟨comma, bracket, -⟩ := (readable p member).default d given c inside
    exact ⟨comma, bracket, rfl⟩
  · exact unindented_declaration (readable p member).name target

end Reading

/-- The text of a parameter list declares the parameters of the signature that it was written for, each with its name,
its kind, the text of its type and its default. -/
theorem declarations_recovered (ordered : ps.Pairwise fun p q => p.kind.MayPrecede q.kind)
    (readable : ∀ p ∈ ps, p.Readable) (target : Option String) :
    ∃ parts, Declaration.parts? (renderAll target ps) = some parts ∧
      Declaration.readParts? parts = some (ps.map (declared target)) ∧
      parts.count "/" ≤ 1 ∧ parts.count "*" ≤ 1 ∧
      ("*" ∈ parts → (∃ p ∈ ps, p.kind = .keywordOnly) ∧ ∀ p ∈ ps, p.kind ≠ .extraPositional) := by
  have read := readParts?_items readable ordered target
  obtain ⟨slash, star, needed⟩ := Declaration.readParts?_separators read
  refine ⟨_, parts?_renderAll readable target, read, slash, star, fun member => ?_⟩
  simpa [declared] using needed member

/-- A parameter of each kind, and a type with a comma in its text. -/
def ofEachKind : List Parameter :=
  [{ name := "a", kind := .positionalOnly
     type := some ⟨"Mapping", some "abc", [⟨"str", none, []⟩, ⟨"Row", some "app", []⟩]⟩ },
    { name := "b", default := some "None" }, { name := "c", kind := .extraPositional },
    { name := "d", kind := .keywordOnly, type := some ⟨"int", none, []⟩, default := some "0" },
    { name := "e", kind := .extraKeyword }]

example : renderAll (some "app") ofEachKind = "a: abc.Mapping[str, Row], /, b = None, *c, d: int = 0, **e" := by decide

theorem declarations_recovered_ofEachKind :
    (ofEachKind.Pairwise fun p q => p.kind.MayPrecede q.kind) ∧ (∀ p ∈ ofEachKind, p.Readable) ∧
      ∃ parts, Declaration.parts? (renderAll (some "app") ofEachKind) = some parts ∧
        Declaration.readParts? parts = some (ofEachKind.map (declared (some "app"))) ∧
        parts.count "/" ≤ 1 ∧ parts.count "*" ≤ 1 ∧
        ("*" ∈ parts → (∃ p ∈ ofEachKind, p.kind = .keywordOnly) ∧ ∀ p ∈ ofEachKind, p.kind ≠ .extraPositional) :=
  have ordered : ofEachKind.Pairwise fun p q => p.kind.MayPrecede q.kind := by decide
  have readable : ∀ p ∈ ofEachKind, p.Readable := by decide
  ⟨ordered, readable, declarations_recovered ordered readable (some "app")⟩

end Parameter

end SyncFacade
