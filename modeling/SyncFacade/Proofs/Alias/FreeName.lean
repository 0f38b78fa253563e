import SyncFacade.Source.Alias
import Mathlib.Data.List.Nodup
import Mathlib.Data.List.Perm.Subperm

/-! The alias of a name is found within as many steps as there are taken names, since underscores in
front make names that are all different. -/
namespace SyncFacade

theorem toList_underscored (name : String) (count : Nat) :
    (underscored name count).toList = List.replicate count '_' ++ name.toList := by
  simp [underscored]

@[simp] theorem underscored_zero (name : String) : underscored name 0 = name := by
  simp [underscored]

theorem underscored_injective (name : String) : Function.Injective (underscored name) := by
  intro j k same
  have lengths := congrArg (fun s : String => s.toList.length) same
  simp only [toList_underscored, List.length_append, List.length_replicate] at lengths
  omega

theorem exists_free (name : String) (taken : List String) :
    ∃ k ≤ taken.length, underscored name k ∉ taken := by
  by_contra none_free
  push Not at none_free
  let candidates := (List.range (taken.length + 1)).map (underscored name)
  have distinct : candidates.Nodup :=
    List.Nodup.map (underscored_injective name) List.nodup_range
  have all_taken : candidates ⊆ taken := by
    intro candidate member
    obtain ⟨k, below, rfl⟩ := List.mem_map.mp member
    exact none_free k (Nat.lt_succ_iff.mp (List.mem_range.mp below))
  have bound := (List.subperm_of_subset distinct all_taken).length_le
  simp only [candidates, List.length_map, List.length_range] at bound
  omega

/-- As few underscores stand in front of the name as make it free. -/
theorem freeName_least (name : String) (taken : List String) :
    ∃ k ≤ taken.length, freeName name taken = underscored name k ∧
      underscored name k ∉ taken ∧ ∀ j < k, underscored name j ∈ taken := by
  obtain ⟨bound, within, free⟩ := exists_free name taken
  cases found : (List.range (taken.length + 1)).find?
      ((fun n => !taken.contains n) ∘ underscored name) with
  | none =>
    have never := List.find?_range_eq_none.mp found bound (Nat.lt_succ_of_le within)
    simp [free] at never
  | some k =>
    obtain ⟨here, below, before⟩ := List.find?_range_eq_some.mp found
    refine ⟨k, Nat.lt_succ_iff.mp (List.mem_range.mp below), ?_, ?_, ?_⟩
    · rw [freeName, List.find?_map, found]
      rfl
    · simpa using here
    · intro j earlier
      simpa using before j earlier

theorem freeName_not_mem (name : String) (taken : List String) : freeName name taken ∉ taken := by
  obtain ⟨k, _, chosen, free, _⟩ := freeName_least name taken
  rw [chosen]
  exact free

theorem freeName_underscore (name : String) (taken : List String) :
    ∃ rest, (freeName ("_" ++ name) taken).toList = '_' :: rest := by
  obtain ⟨k, _, chosen, _⟩ := freeName_least ("_" ++ name) taken
  rw [chosen, toList_underscored, String.toList_append]
  cases k with
  | zero => exact ⟨name.toList, rfl⟩
  | succ k => exact ⟨_, rfl⟩

theorem freeName_ne (name other : String) (taken : List String)
    (start : other.toList.head? ≠ some '_') : freeName ("_" ++ name) taken ≠ other := by
  rintro rfl
  obtain ⟨rest, spelled⟩ := freeName_underscore name taken
  rw [spelled] at start
  exact start rfl

end SyncFacade
