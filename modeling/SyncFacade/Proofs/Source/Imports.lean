import SyncFacade.Proofs.OrderedMap
import SyncFacade.Source.Module

/-! What the text of a module shows of other modules: the qualifiers of its types, and its imports. -/
namespace SyncFacade

namespace TypeRef

theorem render_plain (target : Option String) (name : String) (module : Option String) :
    render target { name, module } = label target { name, module } := by
  rw [render]
  exact String.append_empty

theorem render_foreign {target : Option String} {module : String} (named : module ≠ "")
    (foreign : some module ≠ target) (name : String) :
    render target { name, module := some module } = module ++ "." ++ name := by
  have qualified : printedQualifier target { name, module := some module } = some module := by
    simp [printedQualifier, qualifier, Option.filter, named, foreign]
  simp only [render_plain, label, qualified]

theorem render_own (name module : String) :
    render (some module) { name, module := some module } = name := by
  have unqualified : printedQualifier (some module) { name, module := some module } = none := by
    by_cases named : module = "" <;> simp [printedQualifier, qualifier, Option.filter, named]
  simp only [render_plain, label, unqualified]

theorem mem_modules {t : TypeRef} {module : String} (defined : t.module = some module)
    (named : module ≠ "") : module ∈ t.modules := by
  obtain ⟨name, own, arguments⟩ := t
  cases defined
  simp [modules, qualifier, Option.filter, named]

end TypeRef

theorem mem_sortedDistinct {s : String} {ss : List String} : s ∈ sortedDistinct ss ↔ s ∈ ss := by
  rw [sortedDistinct, List.mem_mergeSort, List.mem_eraseDups]

theorem ascending_mergeSort {α : Type} (key : α → String) {l : List α} (distinct : (l.map key).Nodup) :
    ((l.mergeSort fun a b => decide (key a ≤ key b)).map key).Pairwise (· < ·) := by
  have sorted : ((l.mergeSort fun a b => decide (key a ≤ key b)).map key).Pairwise (· ≤ ·) := by
    rw [List.pairwise_map]
    refine List.Pairwise.imp of_decide_eq_true (List.pairwise_mergeSort ?_ ?_ l)
    · intro a b c first second
      exact decide_eq_true (String.le_trans (of_decide_eq_true first) (of_decide_eq_true second))
    · intro a b
      simpa using String.le_total (key a) (key b)
  have apart : ((l.mergeSort fun a b => decide (key a ≤ key b)).map key).Nodup :=
    ((List.mergeSort_perm l _).map key).nodup_iff.mpr distinct
  refine (sorted.and apart).imp fun {a b} both => ?_
  obtain ⟨below, different⟩ := both
  apply String.not_le.mp
  intro above
  exact different (String.le_antisymm below above)

theorem sortedDistinct_ascending (ss : List String) : (sortedDistinct ss).Pairwise (· < ·) := by
  have distinct : (ss.eraseDups.map id).Nodup := (List.map_id _).symm ▸ nodup_eraseDups ss
  simpa [sortedDistinct] using ascending_mergeSort id distinct

/-- A text comes once and in its place, however often it was there. -/
theorem sortedDistinct_eq {l ss : List String} (ascending : l.Pairwise (· < ·)) (listed : ∀ s ∈ ss, s ∈ l)
    (all : ∀ s ∈ l, s ∈ ss) : sortedDistinct ss = l := by
  have sorted := sortedDistinct_ascending ss
  have different : ∀ {a b : String}, a < b → a ≠ b := fun below same => String.lt_irrefl _ (same ▸ below)
  have perm : (sortedDistinct ss).Perm l := by
    rw [List.perm_ext_iff_of_nodup (sorted.imp different) (ascending.imp different)]
    intro s
    rw [mem_sortedDistinct]
    exact ⟨listed s, all s⟩
  exact perm.eq_of_pairwise (fun a b _ _ first second => absurd (String.lt_trans first second) (String.lt_irrefl a))
    sorted ascending

namespace TypeRef

mutual

theorem not_mem_modules : ∀ t : TypeRef, "" ∉ t.modules
  | ⟨name, module, arguments⟩ => by
    have inside := not_mem_modulesOfAll arguments
    simpa [modules, qualifier, Option.filter_eq_some_iff] using inside

theorem not_mem_modulesOfAll : ∀ ts : List TypeRef, "" ∉ modulesOfAll ts
  | [] => by simp [modulesOfAll]
  | t :: ts => by
    have head := not_mem_modules t
    have tail := not_mem_modulesOfAll ts
    simpa [modulesOfAll] using ⟨head, tail⟩

end

end TypeRef

theorem mem_importedModules {target : Option String} {interfaces : List Interface} {wrappers : List Wrapper}
    {module : String} :
    module ∈ importedModules target interfaces wrappers ↔
      (module = "typing" ∨ (∃ i ∈ interfaces, module ∈ i.modules) ∨ ∃ w ∈ wrappers, module ∈ w.modules) ∧
        some module ≠ target := by
  simp only [importedModules, mem_sortedDistinct, List.mem_filter, List.mem_cons, List.cons_append,
    List.mem_append, List.mem_flatMap, bne_iff_ne]

end SyncFacade
