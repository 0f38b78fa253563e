import SyncFacade.ClassTable.Description
import SyncFacade.Generation
import SyncFacade.Proofs.OrderedMap
import SyncFacade.Proofs.Sequencing

/-! The namespaces of classes, and what their descriptions make of them. A description has the public functions
of a namespace in their order, but it calls each of them by the name that the function carries itself. -/
namespace SyncFacade

/-- Each name stands in the namespace of a class once, and a class comes first in its own lineage. -/
structure DeclaredClass.Sound (c : DeclaredClass) (number : Nat) : Prop where
  names : c.attributes.keys.Nodup
  first : c.lineage.head? = some (.declared number)

def Numbered (first : Nat) (classes : List DeclaredClass) : Prop :=
  ∀ i (c : DeclaredClass), classes[i]? = some c → c.Sound (first + i)

theorem Numbered.append {first : Nat} {front back : List DeclaredClass} (before : Numbered first front)
    (after : Numbered (first + front.length) back) : Numbered first (front ++ back) := by
  intro i c found
  rcases Nat.lt_or_ge i front.length with inside | behind
  · rw [List.getElem?_append_left inside] at found
    exact before i c found
  · rw [List.getElem?_append_right behind] at found
    have place : first + front.length + (i - front.length) = first + i := by omega
    exact place ▸ after _ c found

theorem Numbered.singleton {first : Nat} {c : DeclaredClass} (sound : c.Sound first) :
    Numbered first [c] := by
  intro i d found
  cases i with
  | zero =>
    cases found
    exact sound
  | succ i => contradiction

theorem Numbered.modify {classes : List DeclaredClass} (numbered : Numbered 0 classes) (n : Nat)
    {f : DeclaredClass → DeclaredClass} (keeps : ∀ c i, c.Sound i → (f c).Sound i) :
    Numbered 0 (classes.modify n f) := by
  intro i c found
  rw [List.getElem?_modify] at found
  obtain ⟨d, here, rfl⟩ := Option.map_eq_some_iff.mp found
  split
  · exact keeps d _ (numbered i d here)
  · exact numbered i d here

namespace ClassBody

/-- What a body has made while it runs. The classes inside it are numbered behind its own. -/
structure Sound (b : ClassBody) (number : Nat) : Prop where
  names : b.attributes.keys.Nodup
  inner : Numbered (number + 1) b.classes

theorem Sound.run {b : ClassBody} {number : Nat} (sound : b.Sound number) (d : ClassDeclaration)
    (place : Nat) (member : Member) : (b.run d number place member).Sound number := by
  cases member with
  | function name role f => exact ⟨OrderedMap.nodup_keys_put sound.names _ _, sound.inner⟩
  | sameAs name target =>
    cases found : b.attributes.find? target with
    | none =>
      simp only [ClassBody.run, found]
      exact sound
    | some a =>
      simp only [ClassBody.run, found]
      exact ⟨OrderedMap.nodup_keys_put sound.names _ _, sound.inner⟩
  | value name v => exact ⟨OrderedMap.nodup_keys_put sound.names _ _, sound.inner⟩
  | inner name =>
    refine ⟨OrderedMap.nodup_keys_put sound.names _ _, sound.inner.append (.singleton ?_)⟩
    exact ⟨List.nodup_nil, rfl⟩
  | delete name => exact ⟨OrderedMap.nodup_keys_erase sound.names _, sound.inner⟩

theorem Sound.runAll {b : ClassBody} {number : Nat} (sound : b.Sound number) (d : ClassDeclaration)
    (lines : List (Member × Nat)) :
    (lines.foldl (fun b (member, place) => b.run d number place member) b).Sound number := by
  induction lines generalizing b with
  | nil => exact sound
  | cons line rest ih => exact ih (sound.run d line.2 line.1)

end ClassBody

theorem ClassDeclaration.sound_run (d : ClassDeclaration) (number : Nat) : (d.run number).Sound number := by
  have started : ClassBody.Sound { attributes := ⟨d.doc.toList.map fun s => (docName, .value (.str s))⟩ }
      number := by
    constructor
    · cases d.doc <;> simp [OrderedMap.keys]
    · intro i c found
      contradiction
  have ended := started.runAll d d.members.zipIdx
  refine ⟨?_, ended.inner⟩
  have names := ended.names
  rw [OrderedMap.keys] at names
  rw [run, OrderedMap.keys, List.map_map]
  exact names

namespace ClassTable

/-- The tables that come about as classes are declared, whatever modules have under their names meanwhile. -/
inductive Grown : ClassTable → Prop where
  | empty : Grown {}
  | introduce {t : ClassTable} (d : ClassDeclaration) : Grown t → Grown (t.introduce d)
  | renamed {t : ClassTable} (exposed : OrderedMap (String × String) Nat) : Grown t → Grown { t with exposed }

theorem numbered_declare {t : ClassTable} (numbered : Numbered 0 t.classes.toList) (d : ClassDeclaration) :
    Numbered 0 (t.declare d).classes.toList := by
  have body := d.sound_run t.classes.size
  have size : t.classes.toList.length = t.classes.size := Array.length_toList
  simp only [declare, Array.toList_appendList, Array.toList_push]
  refine (numbered.append (.singleton ?_)).append ?_
  · exact ⟨body.names, by simp [size]⟩
  · simp only [List.length_append, List.length_singleton, size, Nat.zero_add]
    exact body.inner

theorem numbered_expose {t : ClassTable} (numbered : Numbered 0 t.classes.toList) (number : Nat)
    (module qualifiedName : String) :
    Numbered 0 (t.expose number module qualifiedName).classes.toList := by
  unfold expose
  split
  · exact numbered
  · exact numbered
  · split
    · exact numbered
    · rw [Array.toList_modify]
      exact numbered.modify _ fun c i sound => ⟨OrderedMap.nodup_keys_put sound.names _ _, sound.first⟩
    · exact numbered

theorem Grown.numbered {t : ClassTable} (grown : t.Grown) : Numbered 0 t.classes.toList := by
  induction grown with
  | empty =>
    intro i c found
    contradiction
  | introduce d _ ih =>
    have declared := numbered_declare ih d
    simp only [ClassTable.introduce]
    split
    · exact numbered_expose declared _ _ _
    · exact declared
  | renamed exposed _ ih => exact ih

theorem Grown.sound {t : ClassTable} (grown : t.Grown) {number : Nat} {c : DeclaredClass}
    (found : t.find? number = some c) : c.Sound number := by
  have numbered := grown.numbered number c
  rw [Array.getElem?_toList, Nat.zero_add] at numbered
  exact numbered found

end ClassTable

def Attribute.isFunction : Attribute → Bool
  | .method .. => true
  | _ => false

def Attribute.ownName? : Attribute → Option String
  | .method _ f => some f.name
  | _ => none

namespace DeclaredClass

/-- The functions in the namespace of a class, under the keys that do not start with an underscore. -/
def publicEntries (c : DeclaredClass) : List (String × Attribute) :=
  c.attributes.entries.filter fun (key, a) => !ClassTable.isPrivate key && a.isFunction

def NamesKept (c : DeclaredClass) : Prop := ∀ e ∈ c.publicEntries, e.2.ownName? = some e.1

theorem imposed?_of_public (c : DeclaredClass) {name : String} (shown : ClassTable.isPrivate name = false) :
    c.imposed? name = none := by
  have other : ∀ special, ClassTable.isPrivate special = true → name ≠ special := by
    rintro special hidden rfl
    rw [hidden] at shown
    contradiction
  simp [imposed?, ClassKind.imposed?, other variablesName (by decide), other protocolNamesName (by decide),
    other BaseClass.protocolMark (by decide), other abstractNamesName (by decide),
    other registryName (by decide)]

theorem nodup_publicEntries {c : DeclaredClass} {number : Nat} (sound : c.Sound number) :
    (c.publicEntries.map Prod.fst).Nodup :=
  sound.names.sublist (List.filter_sublist.map _)

theorem related_publicFunctions (c : DeclaredClass) :
    List.Forall₂ (fun e p => e.2 = .method p.1 p.2) c.publicEntries
      (ClassTable.DeclaredClass.publicFunctions c) := by
  unfold publicEntries ClassTable.DeclaredClass.publicFunctions
  induction c.attributes.entries with
  | nil => exact .nil
  | cons e rest ih =>
    obtain ⟨key, a⟩ := e
    cases hidden : ClassTable.isPrivate key <;> cases a <;> simpa [hidden, Attribute.isFunction] using ih

end DeclaredClass

namespace ClassTable

/-- A lookup that starts at a class finds the public names of its own namespace before any others. -/
theorem attribute?_of_entry {t : ClassTable} (grown : t.Grown) {number : Nat} {c : DeclaredClass}
    (found : t.find? number = some c) {name : String} {a : Attribute} (entry : (name, a) ∈ c.attributes.entries)
    (shown : isPrivate name = false) : t.attribute? (.declared number) name = some a := by
  have sound := grown.sound found
  obtain ⟨ancestors, lineage⟩ := List.head?_eq_some_iff.mp sound.first
  have here : c.attributes.find? name = some a := (OrderedMap.mem_entries_iff sound.names).mp entry
  have own : t.own? (.declared number) name = some a := by
    simp [own?, found, DeclaredClass.own?, c.imposed?_of_public shown, DeclaredClass.made?, here]
  simp [attribute?, ClassTable.lineage, found, lineage, own]

/-- A method describes what stands at an entry of a namespace. -/
def Describes (t : ClassTable) (names : DeclaredClass → Function → Names) (c : DeclaredClass)
    (e : String × Attribute) (m : Method) : Prop :=
  ∃ origin f, e.2 = .method origin f ∧ (t.describeFunction names c origin f).outcome = .ok m

theorem Describes.name {t : ClassTable} {names : DeclaredClass → Function → Names} {c : DeclaredClass}
    {e : String × Attribute} {m : Method} (describes : t.Describes names c e m) :
    e.2.ownName? = some m.name := by
  obtain ⟨origin, f, function, described⟩ := describes
  cases described
  rw [function]
  rfl

theorem names_eq_keys_iff {t : ClassTable} {names : DeclaredClass → Function → Names} {c : DeclaredClass}
    {entries : List (String × Attribute)} {methods : List Method}
    (related : List.Forall₂ (t.Describes names c) entries methods) :
    methods.map Method.name = entries.map Prod.fst ↔ ∀ e ∈ entries, e.2.ownName? = some e.1 := by
  induction related with
  | nil => simp
  | cons describes _ ih => simp [ih, describes.name]

theorem exists_description {t : ClassTable} (names : DeclaredClass → Function → Names) {number : Nat}
    {c : DeclaredClass} (found : t.find? number = some c) :
    ∃ info, (t.describe names number).outcome = .ok info ∧
      List.Forall₂ (t.Describes names c) c.publicEntries info.methods := by
  obtain ⟨methods, made⟩ : ∃ methods, ((DeclaredClass.publicFunctions c).mapM fun (origin, f) =>
      t.describeFunction names c origin f).outcome = .ok methods :=
    Logged.mapM_ok_of_each fun (origin, f) _ => ⟨_, rfl⟩
  have related : List.Forall₂ (t.Describes names c) c.publicEntries methods :=
    related_trans (fun e p _ m function described => ⟨p.1, p.2, function, described⟩)
      c.related_publicFunctions (Logged.mapM_outcome_ok made)
  simp only [describe, found]
  rw [Logged.bind_ok _ made]
  exact ⟨_, rfl, related⟩

end ClassTable
end SyncFacade
