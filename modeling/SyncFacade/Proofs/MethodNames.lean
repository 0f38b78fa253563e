import SyncFacade.Proofs.Importing

/-! The names of the methods of a description. A method is called as its function calls itself, and a wrapper asks for
it by that name. This is the key of the function in the namespace of its class where nothing else was put there: no
other name for it, and no function made elsewhere. -/
namespace SyncFacade.ClassTable

/-- A description of a class has a method for each public function of its namespace. The methods have the keys of the
namespace for names exactly if every one of these functions stands under its own name. Then no name occurs twice, and
what a wrapper calls is the function described. -/
structure NamedByKeys (t : ClassTable) (names : DeclaredClass → Function → Names) (number : Nat) (c : DeclaredClass)
    (info : ClassInfo) : Prop where
  described : (t.describe names number).outcome = .ok info
  related : List.Forall₂ (t.Describes names c) c.publicEntries info.methods
  same : info.methods.map Method.name = c.publicEntries.map Prod.fst ↔ c.NamesKept
  distinct : c.NamesKept → (info.methods.map Method.name).Nodup
  reached : c.NamesKept → List.Forall₂
    (fun e m => t.attribute? (.declared number) (m.delegation delegateName).method = some e.2)
    c.publicEntries info.methods

theorem Grown.exists_namedByKeys {t : ClassTable} (grown : t.Grown) (names : DeclaredClass → Function → Names)
    {number : Nat} {c : DeclaredClass} (found : t.find? number = some c) :
    ∃ info, t.NamedByKeys names number c info := by
  obtain ⟨info, described, related⟩ := exists_description names found
  have same := names_eq_keys_iff related
  refine ⟨info, described, related, same, fun kept => ?_, fun kept => ?_⟩
  · rw [same.mpr kept]
    exact DeclaredClass.nodup_publicEntries (grown.sound found)
  · refine related_imp (fun e member m _ describes => ?_) related
    have own : (m.delegation delegateName).method = e.1 :=
      Option.some.inj (describes.name.symm.trans (kept e member))
    obtain ⟨entry, shown⟩ := List.mem_filter.mp member
    simp only [Bool.and_eq_true, Bool.not_eq_true'] at shown
    rw [own]
    exact attribute?_of_entry grown found entry shown.1

/-- A table that the program comes to by importing modules is one that declarations led to. In every such table each
class has a description, whose methods have the keys for names exactly if the functions have. -/
theorem methods_named_by_keys_iff (t : ClassTable) (names : DeclaredClass → Function → Names) :
    (∀ (r : CommandLine.Request) (sources : Workspace.Sources) (w : Workspace),
      r.imported sources = .ok w → w.classes = t → t.Grown) ∧
    (t.Grown → ∀ (number : Nat) (c : DeclaredClass),
      t.find? number = some c → ∃ info, t.NamedByKeys names number c info) := by
  constructor
  · rintro r sources w imported rfl
    exact CommandLine.Request.grown_imported imported
  · exact fun grown number c found => grown.exists_namedByKeys names found

/-- Two functions that one decorator made. Both are called as it calls them. -/
def decorated : ClassTable :=
  ({} : ClassTable).introduce
    { name := "Repository", module := "app.repository", qualifiedName := "Repository"
      members := [
        .function "fetch" .method { name := "retrying", parameters := [{ name := "self" }] },
        .function "store" .method { name := "retrying", parameters := [{ name := "self" }] }] }

theorem decorated_misnamed :
    ∃ c info, decorated.find? 0 = some c ∧ c.publicEntries.map Prod.fst = ["fetch", "store"] ∧
      (decorated.describe (fun _ _ _ => none) 0).outcome = .ok info ∧
      info.methods.map Method.name = ["retrying", "retrying"] ∧
      decorated.attribute? (.declared 0) "retrying" = none := by
  exact ⟨_, _, rfl, rfl, rfl, rfl, rfl⟩

/-- Functions under their own names, one of them private. -/
def repositoryClass : ClassDeclaration :=
  { name := "Repository", module := "repository", qualifiedName := "Repository"
    members := [
      .function "fetch" .method { name := "fetch", parameters := [{ name := "self" }] },
      .function "_close" .method { name := "_close", parameters := [{ name := "self" }] },
      .function "store" .method { name := "store", parameters := [{ name := "self" }] }] }

def repositoryModule : SourceModule :=
  { name := "repository"
    body := [(.always, .cls "Repository" (fun _ => pure repositoryClass) none none)] }

/-- What the import of the module leaves. The class is declared anew when the module is run again. -/
def undecorated : ClassTable := (({} : ClassTable).introduce repositoryClass).introduce repositoryClass

theorem undecorated_named_by_keys :
    ∃ w, CommandLine.Request.imported { modules := [some "repository"] } [repositoryModule] = .ok w ∧
      w.classes = undecorated ∧ undecorated.Grown ∧ ∃ c info, undecorated.find? 1 = some c ∧
      (undecorated.describe (fun _ _ _ => none) 1).outcome = .ok info ∧
      info.methods.map Method.name = ["fetch", "store"] ∧ (info.methods.map Method.name).Nodup ∧
      List.Forall₂ (fun e m => undecorated.attribute? (.declared 1) (m.delegation delegateName).method = some e.2)
          c.publicEntries info.methods := by
  obtain ⟨w, imported, left⟩ : ∃ w,
      CommandLine.Request.imported { modules := [some "repository"] } [repositoryModule] = .ok w ∧
        w.classes = undecorated := ⟨_, rfl, rfl⟩
  obtain ⟨grows, named_of_grown⟩ := methods_named_by_keys_iff undecorated fun _ _ _ => none
  have grown : undecorated.Grown := grows _ _ w imported left
  obtain ⟨c, found⟩ : ∃ c, undecorated.find? 1 = some c := ⟨_, rfl⟩
  obtain ⟨info, named⟩ := named_of_grown grown 1 c found
  have kept : c.NamesKept := by
    cases found
    unfold DeclaredClass.NamesKept
    decide
  have keys : c.publicEntries.map Prod.fst = ["fetch", "store"] := by
    cases found
    rfl
  exact ⟨w, imported, left, grown, c, info, found, named.described,
    (named.same.mpr kept).trans keys, named.distinct kept, named.reached kept⟩

end SyncFacade.ClassTable
