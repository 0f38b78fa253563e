import SyncFacade.Proofs.Source.Fragments

/-! The text of a type, read back as a tree. The reader goes through the text once and keeps the nodes whose brackets
are open. It accepts the texts of trees and nothing else, so that a type's text shows how the type is put together, as
long as no name and no module in it has a mark of the notation. -/
namespace SyncFacade

/-- A tree with a label at each node. -/
inductive LabelTree where
  | node (label : String) (children : List LabelTree)

namespace LabelTree

def isMark (c : Char) : Bool := c = '[' || c = ']' || c = ','

/-- A text that can be a label: none of the marks around labels is in it. -/
def Unmarked (s : String) : Prop := ∀ c ∈ s.toList, isMark c = false

instance (s : String) : Decidable (Unmarked s) := List.decidableBAll _ _

inductive Plain : LabelTree → Prop where
  | node {label : String} {children : List LabelTree} : Unmarked label → (∀ t ∈ children, Plain t) →
      Plain (.node label children)

mutual

/-- The text of a tree: its label, and the subtrees in brackets behind it, if there are any. -/
def spelled : LabelTree → List Char
  | .node label [] => label.toList
  | .node label (t :: ts) => label.toList ++ '[' :: (spelled t ++ spelledFurther ts ++ [']'])

def spelledFurther : List LabelTree → List Char
  | [] => []
  | t :: ts => [',', ' '] ++ spelled t ++ spelledFurther ts

end

/-- A node whose bracket is open, with those of its subtrees that are complete. -/
structure OpenNode where
  label : String
  complete : List LabelTree

/-- What was read last: a label so far, the bracket that closed a node, or a comma. -/
inductive Last where
  | label (cs : List Char)
  | closed (t : LabelTree)
  | comma

structure Reader where
  around : List OpenNode
  last : Last

def Last.tree? : Last → Option LabelTree
  | .label cs => some (.node (String.ofList cs) [])
  | .closed t => some t
  | .comma => none

namespace Reader

/-- Read a mark behind a tree, which is a subtree of the innermost open node. -/
def readMark (around : List OpenNode) (t : LabelTree) (c : Char) : Option Reader :=
  match around with
  | [] => none
  | n :: outer =>
    if c = ',' then some ⟨{ n with complete := n.complete ++ [t] } :: outer, .comma⟩
    else if c = ']' then some ⟨outer, .closed (.node n.label (n.complete ++ [t]))⟩
    else none

def read (r : Reader) (c : Char) : Option Reader :=
  match r.last with
  | .label cs =>
    if c = '[' then some ⟨⟨String.ofList cs, []⟩ :: r.around, .label []⟩
    else if isMark c then readMark r.around (.node (String.ofList cs) []) c
    else some ⟨r.around, .label (cs ++ [c])⟩
  | .closed t => readMark r.around t c
  | .comma => if c = ' ' then some ⟨r.around, .label []⟩ else none

def readAll (r : Reader) (cs : List Char) : Option Reader := cs.foldlM read r

end Reader

/-- The tree that a text stands for, if it stands for one. -/
def read? (text : String) : Option LabelTree :=
  (Reader.readAll ⟨[], .label []⟩ text.toList).bind fun r => if r.around.isEmpty then r.last.tree? else none

example : read? "a.Map[str, b.List[int]]" =
    some (.node "a.Map" [.node "str" [], .node "b.List" [.node "int" []]]) := rfl

theorem spelledFurther_concat (ts : List LabelTree) (t : LabelTree) :
    spelledFurther (ts ++ [t]) = spelledFurther ts ++ [',', ' '] ++ t.spelled := by
  induction ts with
  | nil => simp [spelledFurther]
  | cons first rest ih => simp [spelledFurther, ih]

theorem intercalate_spelled (t : LabelTree) (ts : List LabelTree) :
    [',', ' '].intercalate ((t :: ts).map spelled) = t.spelled ++ spelledFurther ts := by
  induction ts generalizing t with
  | nil => simp [spelledFurther]
  | cons next rest ih =>
    have later := ih next
    rw [List.map_cons] at later
    rw [List.map_cons, List.map_cons, List.intercalate_cons_cons, later, spelledFurther]
    simp only [List.append_assoc]

/-- What was read last where a tree ends. -/
def standing : LabelTree → Last
  | .node label [] => .label label.toList
  | t => .closed t

theorem tree?_standing (t : LabelTree) : t.standing.tree? = some t := by
  obtain ⟨label, children⟩ := t
  cases children <;> simp [standing, Last.tree?]

namespace Reader

variable {r : Reader} {around : List OpenNode}

theorem readAll_append (r : Reader) (before after : List Char) :
    r.readAll (before ++ after) = (r.readAll before).bind fun r => r.readAll after := List.foldlM_append

theorem readAll_cons (r : Reader) (c : Char) (cs : List Char) :
    r.readAll (c :: cs) = (r.read c).bind fun r => r.readAll cs := List.foldlM_cons

theorem readAll_label (around : List OpenNode) {cs : List Char} (plain : ∀ c ∈ cs, isMark c = false)
    (before : List Char) :
    readAll ⟨around, .label before⟩ cs = some ⟨around, .label (before ++ cs)⟩ := by
  induction cs generalizing before with
  | nil => rw [List.append_nil]; rfl
  | cons c cs ih =>
    obtain ⟨unmarked, later⟩ := List.forall_mem_cons.mp plain
    have bracket : c ≠ '[' := by rintro rfl; contradiction
    have here : read ⟨around, .label before⟩ c = some ⟨around, .label (before ++ [c])⟩ := by
      simp [read, bracket, unmarked]
    rw [readAll_cons, here, Option.bind_some, ih later, List.append_assoc, List.singleton_append]

theorem read_standing (t : LabelTree) {c : Char} (mark : c = ',' ∨ c = ']') :
    read ⟨around, t.standing⟩ c = readMark around t c := by
  obtain ⟨label, children⟩ := t
  cases children with
  | cons => rfl
  | nil => rcases mark with rfl | rfl <;> simp [read, standing, isMark]

/-- What stands behind a subtree: the further ones, and the bracket that closes the node. -/
theorem readAll_further {label : String} {t : LabelTree} {ts : List LabelTree}
    (runs : ∀ s ∈ ts, ∀ around, readAll ⟨around, .label []⟩ s.spelled = some ⟨around, s.standing⟩)
    (complete : List LabelTree) :
    readAll ⟨⟨label, complete⟩ :: around, t.standing⟩
        (spelledFurther ts ++ [']']) =
      some ⟨around, .closed (.node label (complete ++ t :: ts))⟩ := by
  induction ts generalizing t complete with
  | nil =>
    rw [spelledFurther, List.nil_append, readAll_cons, read_standing t (.inr rfl)]
    rfl
  | cons s ts ih =>
    obtain ⟨first, later⟩ := List.forall_mem_cons.mp runs
    have separator : readAll ⟨⟨label, complete⟩ :: around, t.standing⟩ [',', ' '] =
        some ⟨⟨label, complete ++ [t]⟩ :: around, .label []⟩ := by
      rw [readAll_cons, read_standing t (.inl rfl)]
      rfl
    rw [spelledFurther, List.append_assoc, List.append_assoc, readAll_append, separator, Option.bind_some,
      readAll_append, first, Option.bind_some, ih later, List.append_assoc, List.singleton_append]

theorem readAll_spelled {t : LabelTree} (plain : t.Plain) (around : List OpenNode) :
    readAll ⟨around, .label []⟩ t.spelled = some ⟨around, t.standing⟩ := by
  induction plain generalizing around with
  | @node label children unmarked _ ih =>
    have named := readAll_label around unmarked []
    cases children with
    | nil => exact named
    | cons t ts =>
      obtain ⟨first, later⟩ := List.forall_mem_cons.mp ih
      have opened : read ⟨around, .label label.toList⟩ '[' = some ⟨⟨label, []⟩ :: around, .label []⟩ := by
        simp [read]
      rw [spelled, readAll_append, named, Option.bind_some, List.nil_append, readAll_cons, opened,
        Option.bind_some, List.append_assoc, readAll_append, first, Option.bind_some, readAll_further later]
      rfl

end Reader

section Exactness

/-- The text of an open node up to its next subtree. -/
def OpenNode.spelled (n : OpenNode) : List Char :=
  n.label.toList ++ '[' :: n.complete.flatMap fun t => t.spelled ++ [',', ' ']

def spelledAround : List OpenNode → List Char
  | [] => []
  | n :: outer => spelledAround outer ++ n.spelled

namespace Last

def spelled : Last → List Char
  | .label cs => cs
  | .closed t => t.spelled
  | .comma => []

/-- What has to come next, before anything else. -/
def due : Last → List Char
  | .label _ | .closed _ => []
  | .comma => [' ']

def Plain : Last → Prop
  | .label cs => ∀ c ∈ cs, isMark c = false
  | .closed t => t.Plain
  | .comma => True

end Last

def PlainAround (around : List OpenNode) : Prop := ∀ n ∈ around, Unmarked n.label ∧ ∀ t ∈ n.complete, t.Plain

/-- A reader that has read a text keeps all of it. -/
structure Reader.HasRead (r : Reader) (cs : List Char) : Prop where
  text : cs ++ r.last.due = spelledAround r.around ++ r.last.spelled
  around : PlainAround r.around
  last : r.last.Plain

/-- The separators stand behind each subtree, or before it. -/
theorem separated_spelled (ts : List LabelTree) :
    [',', ' '] ++ ts.flatMap (fun t => t.spelled ++ [',', ' ']) = spelledFurther ts ++ [',', ' '] := by
  induction ts with
  | nil => rfl
  | cons t ts ih =>
    rw [List.flatMap_cons, List.append_assoc t.spelled, ih, spelledFurther]
    simp only [List.append_assoc]

theorem spelled_concat (label : String) (ts : List LabelTree) (t : LabelTree) :
    spelled (.node label (ts ++ [t])) =
      label.toList ++ '[' :: (ts.flatMap (fun s => s.spelled ++ [',', ' ']) ++ t.spelled ++ [']']) := by
  cases ts with
  | nil => simp [spelled, spelledFurther]
  | cons first rest =>
    rw [List.cons_append, spelled, spelledFurther_concat, List.flatMap_cons, List.append_assoc first.spelled,
      List.append_assoc first.spelled, separated_spelled]
    simp only [List.append_assoc]

namespace Reader

variable {r r' : Reader} {around : List OpenNode} {t : LabelTree} {c : Char} {cs : List Char}

theorem HasRead.readMark (text : cs = spelledAround around ++ t.spelled) (opened : PlainAround around)
    (plain : t.Plain) (next : Reader.readMark around t c = some r') : r'.HasRead (cs ++ [c]) := by
  subst text
  cases around with
  | nil => contradiction
  | cons n outer =>
    obtain ⟨⟨unmarked, inside⟩, further⟩ := List.forall_mem_cons.mp opened
    have grown : ∀ s ∈ n.complete ++ [t], s.Plain := by
      simpa only [List.forall_mem_append, List.forall_mem_singleton] using ⟨inside, plain⟩
    simp only [Reader.readMark] at next
    split at next
    · next comma =>
      cases next
      refine ⟨?_, List.forall_mem_cons.mpr ⟨⟨unmarked, grown⟩, further⟩, trivial⟩
      simp [comma, spelledAround, OpenNode.spelled, Last.due, Last.spelled]
    · split at next
      · next bracket =>
        cases next
        refine ⟨?_, further, .node unmarked grown⟩
        simp [bracket, spelledAround, OpenNode.spelled, Last.due, Last.spelled, spelled_concat]
      · contradiction

theorem HasRead.read (before : r.HasRead cs) (next : r.read c = some r') : r'.HasRead (cs ++ [c]) := by
  obtain ⟨around, last⟩ := r
  obtain ⟨text, opened, plain⟩ := before
  cases last with
  | label l =>
    have letters : ∀ c ∈ l, isMark c = false := plain
    simp only [Last.due, List.append_nil] at text
    simp only [Reader.read] at next
    split at next
    · next bracket =>
      cases next
      have unmarked : Unmarked (String.ofList l) := by simpa [Unmarked] using letters
      refine ⟨?_, List.forall_mem_cons.mpr ⟨⟨unmarked, by simp⟩, opened⟩, by simp [Last.Plain]⟩
      simp [text, bracket, spelledAround, OpenNode.spelled, Last.due, Last.spelled]
    · split at next
      · have leaf : (LabelTree.node (String.ofList l) []).Plain := .node (by simpa [Unmarked] using letters) (by simp)
        exact HasRead.readMark (by simpa [Last.spelled, spelled] using text) opened leaf next
      · next unmarked =>
        cases next
        refine ⟨by simp [text, Last.due, Last.spelled], opened, ?_⟩
        simpa only [Last.Plain, List.forall_mem_append, List.forall_mem_singleton] using
          ⟨letters, by simpa using unmarked⟩
  | closed t =>
    exact HasRead.readMark (by simpa [Last.due, Last.spelled] using text) opened plain next
  | comma =>
    simp only [Reader.read] at next
    split at next
    · next space =>
      cases next
      exact ⟨by simpa [space, Last.due, Last.spelled] using text, opened, by simp [Last.Plain]⟩
    · contradiction

theorem HasRead.readAll {before : List Char} (read : r.HasRead before) (rest : r.readAll cs = some r') :
    r'.HasRead (before ++ cs) := by
  induction cs generalizing r before with
  | nil =>
    cases rest
    simpa using read
  | cons c cs ih =>
    rw [readAll_cons] at rest
    obtain ⟨next, here, later⟩ := Option.bind_eq_some_iff.mp rest
    simpa using ih (read.read here) later

end Reader

end Exactness

/-- The texts that are accepted are those of trees whose labels have no mark in them. -/
theorem read?_eq_some_iff {text : String} {t : LabelTree} :
    read? text = some t ↔ t.Plain ∧ text.toList = t.spelled := by
  constructor
  · intro accepted
    obtain ⟨⟨around, last⟩, run, ended⟩ := Option.bind_eq_some_iff.mp accepted
    have start : Reader.HasRead ⟨[], .label []⟩ [] := ⟨rfl, by simp [PlainAround], by simp [Last.Plain]⟩
    obtain ⟨spelling, _, plain⟩ := start.readAll run
    cases around with
    | cons => simp at ended
    | nil =>
      cases last with
      | label cs =>
        cases ended
        have letters : ∀ c ∈ cs, isMark c = false := plain
        refine ⟨.node (by simpa [Unmarked] using letters) (by simp), ?_⟩
        simpa [Last.due, Last.spelled, spelledAround, spelled] using spelling
      | closed t =>
        cases ended
        exact ⟨plain, by simpa [Last.due, Last.spelled, spelledAround] using spelling⟩
      | comma => simp [Last.tree?] at ended
  · rintro ⟨plain, spelling⟩
    rw [read?, spelling, Reader.readAll_spelled plain, Option.bind_some]
    exact t.tree?_standing

end LabelTree

namespace TypeRef

open LabelTree (Unmarked)

/-- The name of a type as the target shows it: behind the module, unless that is empty or the target itself. -/
def shownName (target : Option String) (name : String) (module : Option String) : String :=
  match module with
  | some m => if m ≠ "" ∧ target ≠ some m then m ++ "." ++ name else name
  | none => name

mutual

/-- The tree of a type: each node has the name that the target shows there. -/
def labelled (target : Option String) : TypeRef → LabelTree
  | ⟨name, module, arguments⟩ => .node (shownName target name module) (labelledAll target arguments)

def labelledAll (target : Option String) : List TypeRef → List LabelTree
  | [] => []
  | t :: ts => labelled target t :: labelledAll target ts

end

theorem label_eq_shownName (target : Option String) (name : String) (module : Option String) :
    label target ⟨name, module, []⟩ = shownName target name module := by
  cases module with
  | none => rfl
  | some m =>
    by_cases qualified : m ≠ "" ∧ target ≠ some m
    · have shown : printedQualifier target ⟨name, some m, []⟩ = some m := by
        simp [printedQualifier, qualifier, Option.filter_eq_some_iff, qualified.1, Ne.symm qualified.2]
      rw [label, shown, shownName, if_pos qualified]
    · have hidden : printedQualifier target ⟨name, some m, []⟩ = none := by
        simp [printedQualifier, qualifier, Option.filter_eq_none_iff]
        tauto
      rw [label, hidden, shownName, if_neg qualified]

theorem unmarked_shownName {name : String} {module : Option String} (own : Unmarked name)
    (defined : ∀ m ∈ module, Unmarked m) (target : Option String) : Unmarked (shownName target name module) := by
  cases module with
  | none => exact own
  | some m =>
    have dot : Unmarked "." := by decide
    unfold shownName
    dsimp only
    split
    · simpa only [Unmarked, String.toList_append, List.forall_mem_append] using ⟨⟨defined m rfl, dot⟩, own⟩
    · exact own

mutual

theorem plain_labelled (target : Option String) : ∀ t : TypeRef,
    (∀ s ∈ t.fragments, Unmarked s) → (t.labelled target).Plain
  | ⟨name, module, arguments⟩ => by
    intro plain
    simp only [fragments, List.cons_append, List.forall_mem_cons, List.forall_mem_append, Option.mem_toList] at plain
    obtain ⟨own, defined, inside⟩ := plain
    rw [labelled]
    exact .node (unmarked_shownName own defined target) (plain_labelledAll target arguments inside)

theorem plain_labelledAll (target : Option String) : ∀ ts : List TypeRef,
    (∀ s ∈ fragmentsOfAll ts, Unmarked s) → ∀ t ∈ labelledAll target ts, t.Plain
  | [] => by simp [labelledAll]
  | t :: ts => by
    intro plain
    simp only [fragmentsOfAll, List.forall_mem_append] at plain
    rw [labelledAll, List.forall_mem_cons]
    exact ⟨plain_labelled target t plain.1, plain_labelledAll target ts plain.2⟩

end

mutual

theorem toList_render (target : Option String) : ∀ t : TypeRef, (t.render target).toList = (t.labelled target).spelled
  | ⟨name, module, []⟩ => by
    rw [render_plain, label_eq_shownName, labelled, labelledAll, LabelTree.spelled]
  | ⟨name, module, a :: rest⟩ => by
    have inside := toList_renderAll target (a :: rest)
    have separated := LabelTree.intercalate_spelled (a.labelled target) (labelledAll target rest)
    rw [← labelledAll, ← inside] at separated
    simp [render, labelled, labelledAll, LabelTree.spelled, label_eq_shownName, separated]

theorem toList_renderAll (target : Option String) : ∀ ts : List TypeRef,
    (renderAll target ts).map String.toList = (labelledAll target ts).map LabelTree.spelled
  | [] => by simp [renderAll, labelledAll]
  | t :: ts => by
    have first := toList_render target t
    have later := toList_renderAll target ts
    simp [renderAll, labelledAll, first, later]

end

/-- The text of a type is read as the tree of its shown names, so that two types have one text exactly when they have
the same shape with the same shown names. -/
theorem text_shows_structure {t u : TypeRef} (plain : ∀ s ∈ t.fragments, Unmarked s)
    (alsoPlain : ∀ s ∈ u.fragments, Unmarked s) (target : Option String) :
    LabelTree.read? (t.render target) = some (t.labelled target) ∧
      (t.render target = u.render target ↔ t.labelled target = u.labelled target) := by
  have read : ∀ v : TypeRef, (∀ s ∈ v.fragments, Unmarked s) →
      LabelTree.read? (v.render target) = some (v.labelled target) := fun v unmarked =>
    LabelTree.read?_eq_some_iff.mpr ⟨plain_labelled target v unmarked, toList_render target v⟩
  refine ⟨read t plain, ?_, ?_⟩
  · intro same
    have trees := read t plain
    rw [same, read u alsoPlain] at trees
    exact (Option.some.inj trees).symm
  · intro same
    apply String.toList_injective
    rw [toList_render, toList_render, same]

def rowsByName : TypeRef :=
  ⟨"Mapping", some "collections.abc", [⟨"str", none, []⟩, ⟨"list", none, [⟨"Row", some "app", []⟩]⟩]⟩

/-- The same shape, with a row that is no class of the target. -/
def foreignRowsByName : TypeRef :=
  ⟨"Mapping", some "collections.abc", [⟨"str", some "", []⟩, ⟨"list", none, [⟨"Row", some "lib", []⟩]⟩]⟩

theorem text_shows_structure_rowsByName :
    (∀ s ∈ rowsByName.fragments, Unmarked s) ∧ (∀ s ∈ foreignRowsByName.fragments, Unmarked s) ∧
      LabelTree.read? (rowsByName.render (some "app")) = some (rowsByName.labelled (some "app")) ∧
      (rowsByName.render (some "app") = foreignRowsByName.render (some "app") ↔
        rowsByName.labelled (some "app") = foreignRowsByName.labelled (some "app")) :=
  have plain : ∀ s ∈ rowsByName.fragments, Unmarked s := by decide
  have alsoPlain : ∀ s ∈ foreignRowsByName.fragments, Unmarked s := by decide
  have ⟨read, same⟩ := text_shows_structure plain alsoPlain (some "app")
  ⟨plain, alsoPlain, read, same⟩

end TypeRef
end SyncFacade
