import SyncFacade.Proofs.Alias.Collision
import Mathlib.Data.Finset.Card

/-! An alias can be searched without a bound: one underscore more is put in front as long as the name is taken.
The names that are tried get longer, so that fewer and fewer of the taken ones are long enough to be met. -/
namespace SyncFacade

/-- The taken names that are at least as long as a name. -/
def stillAhead (taken : List String) (name : String) : Finset String :=
  taken.toFinset.filter fun other => name.toList.length ≤ other.toList.length

theorem stillAhead_card_lt {name : String} {taken : List String} (met : name ∈ taken) :
    (stillAhead taken ("_" ++ name)).card < (stillAhead taken name).card := by
  have longer : ("_" ++ name).toList.length = name.toList.length + 1 := by
    rw [String.toList_append, List.length_append, Nat.add_comm]
    rfl
  refine Finset.card_lt_card (Finset.ssubset_iff_of_subset ?_ |>.mpr ⟨name, ?_, ?_⟩)
  · refine Finset.monotone_filter_right _ fun other long => ?_
    omega
  · simp [stillAhead, met]
  · simp [stillAhead]

/-- Put underscores in front of a name as long as it is taken. This counts them. -/
def search (taken : List String) (name : String) : Nat × String :=
  if name ∈ taken then (search taken ("_" ++ name)).map (· + 1) id else (0, name)
termination_by (stillAhead taken name).card
decreasing_by exact stillAhead_card_lt ‹_›

theorem search_of_mem {name : String} {taken : List String} (met : name ∈ taken) :
    search taken name = ((search taken ("_" ++ name)).1 + 1, (search taken ("_" ++ name)).2) := by
  rw [search, if_pos met]
  rfl

theorem search_of_not_mem {name : String} {taken : List String} (free : name ∉ taken) :
    search taken name = (0, name) := by
  rw [search, if_neg free]

theorem search_steps_le_stillAhead (taken : List String) (name : String) :
    (search taken name).1 ≤ (stillAhead taken name).card := by
  induction name using search.induct taken with
  | case1 name met ih =>
    have fewer := stillAhead_card_lt met
    rw [search_of_mem met]
    omega
  | case2 name free =>
    rw [search_of_not_mem free]
    exact Nat.zero_le _

theorem search_steps_le (taken : List String) (name : String) :
    (search taken name).1 ≤ taken.toFinset.card :=
  (search_steps_le_stillAhead taken name).trans (Finset.card_filter_le _ _)

theorem search_found (taken : List String) (name : String) :
    (search taken name).2 = underscored name (search taken name).1 ∧
      (search taken name).2 ∉ taken ∧ ∀ j < (search taken name).1, underscored name j ∈ taken := by
  induction name using search.induct taken with
  | case1 name met ih =>
    obtain ⟨spelled, free, before⟩ := ih
    rw [search_of_mem met]
    refine ⟨?_, free, fun j below => ?_⟩
    · rw [spelled, ← underscored_one, underscored_add]
    · cases j with
      | zero => rwa [underscored_zero]
      | succ j =>
        rw [← underscored_add, underscored_one]
        exact before j (Nat.lt_of_succ_lt_succ below)
  | case2 name free =>
    rw [search_of_not_mem free]
    exact ⟨(underscored_zero name).symm, free, fun j below => absurd below (Nat.not_lt_zero j)⟩

/-- The bounded search finds the same alias. -/
theorem search_eq_freeName (taken : List String) (name : String) :
    (search taken name).2 = freeName name taken := by
  obtain ⟨spelled, free, before⟩ := search_found taken name
  exact firstFree_iff.mp ⟨_, spelled, free, before⟩

/-- A name without the underscores that it starts with. -/
def bare (name : String) : String := String.ofList (name.toList.dropWhile (· = '_'))

theorem bare_underscored (name : String) (k : Nat) : bare (underscored name k) = bare name := by
  rw [bare, bare, toList_underscored]
  induction k with
  | zero => rfl
  | succ k ih => rwa [List.replicate_succ, List.cons_append, List.dropWhile_cons_of_pos (by decide)]

theorem search_ne {name other : String} (apart : bare name ≠ bare other) (taken others : List String) :
    (search taken name).2 ≠ (search others other).2 := by
  intro same
  rw [(search_found taken name).1, (search_found others other).1] at same
  have spelled := congrArg bare same
  rw [bare_underscored, bare_underscored] at spelled
  exact apart spelled

/-- The search for an alias comes to an end within as many steps as there are taken names, with the fewest
underscores that make the name free. So the aliases of names that differ in more than the underscores in front
are different, whatever is taken. -/
theorem search_least (name : String) (taken : List String) :
    (search taken name).1 ≤ taken.toFinset.card ∧
    (search taken name).2 = freeName name taken ∧
    (search taken name).2 = underscored name (search taken name).1 ∧
    (search taken name).2 ∉ taken ∧
    (∀ j < (search taken name).1, underscored name j ∈ taken) ∧
    ∀ other others, bare name ≠ bare other → (search taken name).2 ≠ (search others other).2 :=
  ⟨search_steps_le taken name, search_eq_freeName taken name, (search_found taken name).1,
    (search_found taken name).2.1, (search_found taken name).2.2,
    fun _ others apart => search_ne apart taken others⟩

end SyncFacade
