import SyncFacade.Proofs.OrderedMap
import SyncFacade.Target

/-! Which of several targets stands for a module, and which ones are warned about. What was chosen for
the targets before is chosen again when one more comes, unless that one is the first with a scope, and by
then there was nobody to warn. -/
namespace SyncFacade
namespace Target

/-- Whether a target of a module has a scope for it. -/
def provides (module : String) (t : Target) : Bool := t.module = module ∧ t.scope ≠ none

/-- The first target of a module that has a scope, or else the first target of the module. -/
def standing (targets : List Target) (module : String) : Option Target :=
  (targets.find? (provides module)).or (targets.find? (·.module = module))

/-- The warning about a target that has another scope than what stands for its module. -/
def conflict (targets : List Target) (t : Target) : Option Record :=
  ((standing targets t.module).filter fun used => t.scope ≠ none ∧ t.scope ≠ used.scope).map scopeConflict

variable {targets : List Target} {t used : Target} {module : String}

theorem conflict_of_standing (stands : standing targets t.module = some used) :
    conflict targets t =
      if t.scope ≠ none ∧ t.scope ≠ used.scope then some (scopeConflict used) else none := by
  by_cases differs : t.scope ≠ none ∧ t.scope ≠ used.scope <;>
    simp [conflict, stands, Option.filter, differs]

@[simp] theorem provides_iff : provides module t = true ↔ t.module = module ∧ t.scope ≠ none :=
  decide_eq_true_iff

/-- What stands for a module has a scope if and only if it is the first target to have one. -/
theorem standing_provides_iff : standing targets module = some used ∧ used.scope ≠ none ↔
    targets.find? (provides module) = some used := by
  cases first : targets.find? (provides module) with
  | some provider =>
    have has := (provides_iff.mp (List.find?_some first)).2
    simp only [standing, first, Option.some_or, Option.some.injEq]
    exact ⟨And.left, fun same => ⟨same, same ▸ has⟩⟩
  | none =>
    simp only [standing, first, Option.none_or, reduceCtorEq, iff_false, not_and, not_not]
    intro plain
    by_contra has
    have named : used.module = module := by simpa using List.find?_some plain
    exact List.find?_eq_none.mp first used (List.mem_of_find?_eq_some plain) (provides_iff.mpr ⟨named, has⟩)

theorem find?_provides_of_standing (stands : standing targets module = some used) (has : used.scope = none) :
    targets.find? (provides module) = none := by
  by_contra provided
  obtain ⟨provider, first⟩ := Option.ne_none_iff_exists'.mp provided
  obtain ⟨same, usable⟩ := standing_provides_iff.mpr first
  rw [stands] at same
  cases same
  exact usable has

theorem mem_of_standing (stands : standing targets module = some used) :
    used ∈ targets ∧ used.module = module := by
  rcases Option.or_eq_some_iff.mp stands with first | ⟨_, plain⟩
  · exact ⟨List.mem_of_find?_eq_some first, (provides_iff.mp (List.find?_some first)).1⟩
  · exact ⟨List.mem_of_find?_eq_some plain, by simpa using List.find?_some plain⟩

theorem exists_standing (member : t ∈ targets) : ∃ used, standing targets t.module = some used := by
  refine Option.ne_none_iff_exists'.mp fun nobody => ?_
  have unnamed := List.find?_eq_none.mp (Option.or_eq_none_iff.mp nobody).2
  exact unnamed t member (decide_eq_true rfl)

theorem standing_of_mem (member : t ∈ targets) (has : t.scope ≠ none) :
    ∃ used, standing targets t.module = some used ∧ used.scope ≠ none := by
  have provided : (targets.find? (provides t.module)).isSome :=
    List.find?_isSome.mpr ⟨t, member, provides_iff.mpr ⟨rfl, has⟩⟩
  obtain ⟨used, first⟩ := Option.isSome_iff_exists.mp provided
  exact ⟨used, standing_provides_iff.mpr first⟩

theorem standing_append (stands : standing targets module = some used) (has : used.scope ≠ none)
    (more : List Target) : standing (targets ++ more) module = some used := by
  refine (standing_provides_iff.mpr ?_).1
  rw [List.find?_append, standing_provides_iff.mp ⟨stands, has⟩, Option.some_or]

/-- A target comes to stand for its module if it is the first one, or the first one with a scope. -/
theorem standing_concat (targets : List Target) (t : Target) (module : String) :
    standing (targets ++ [t]) module =
      if t.module = module then
        match standing targets module with
        | none => some t
        | some used => if used.scope = none ∧ t.scope ≠ none then some t else some used
      else standing targets module := by
  by_cases named : t.module = module
  · rw [if_pos named]
    cases stands : standing targets module with
    | none =>
      obtain ⟨unprovided, absent⟩ := Option.or_eq_none_iff.mp stands
      by_cases has : t.scope = none <;>
        simp [standing, List.find?_append, provides, unprovided, absent, named, has]
    | some used =>
      by_cases has : used.scope = none
      · have unprovided := find?_provides_of_standing stands has
        rw [standing, unprovided, Option.none_or] at stands
        by_cases better : t.scope = none <;>
          simp [standing, List.find?_append, provides, unprovided, stands, named, has, better]
      · simp [standing_append stands has, has]
  · simp [standing, List.find?_append, provides, named]

theorem conflict_concat (member : t ∈ targets) (last : Target) :
    conflict (targets ++ [last]) t = conflict targets t := by
  by_cases has : t.scope = none
  · simp [conflict, has]
  · obtain ⟨used, stands, usable⟩ := standing_of_mem member has
    rw [conflict, conflict, stands, standing_append stands usable]

theorem filterMap_conflict_concat (targets : List Target) (t : Target) :
    (targets ++ [t]).filterMap (conflict (targets ++ [t])) =
      targets.filterMap (conflict targets) ++ (conflict (targets ++ [t]) t).toList := by
  have before : targets.filterMap (conflict (targets ++ [t])) = targets.filterMap (conflict targets) :=
    List.filterMap_congr fun _ member => conflict_concat member t
  rw [List.filterMap_append, before]
  cases last : conflict (targets ++ [t]) t <;> simp [last]

/-- A fold over some targets is at what these determine: the modules that came, what stands for each, and
the warnings. -/
structure Settled (targets : List Target) (chosen : List Record × OrderedMap String Target) : Prop where
  modules : chosen.2.keys = (targets.map Target.module).eraseDups
  stands : ∀ module, chosen.2.find? module = standing targets module
  records : chosen.1 = targets.filterMap (conflict targets)

/-- A target that comes to stand for its module has nobody to disagree with. -/
theorem Settled.put {records : List Record} {byModule : OrderedMap String Target}
    (settled : Settled targets (records, byModule)) (now : standing (targets ++ [t]) t.module = some t) :
    Settled (targets ++ [t]) (records, byModule.put t.module t) where
  modules := by
    rw [OrderedMap.keys_put, List.map_append, List.map_singleton, eraseDups_concat, ← settled.modules]
  stands := by
    intro module
    rw [OrderedMap.find?_put]
    by_cases same : module = t.module
    · rw [if_pos same, same, now]
    · rw [if_neg same, settled.stands, standing_concat, if_neg (Ne.symm same)]
  records := by
    have silent : conflict (targets ++ [t]) t = none := by
      rw [conflict_of_standing now, if_neg fun both => both.2 rfl]
    rw [filterMap_conflict_concat, silent, ← settled.records, Option.toList_none, List.append_nil]

theorem Settled.skip {records : List Record} {byModule : OrderedMap String Target}
    (settled : Settled targets (records, byModule)) (found : byModule.find? t.module = some used)
    (now : standing (targets ++ [t]) t.module = some used) :
    Settled (targets ++ [t]) (records ++ (conflict (targets ++ [t]) t).toList, byModule) where
  modules := by
    have known : t.module ∈ byModule.keys := by
      by_contra absent
      rw [OrderedMap.find?_eq_none_iff.mpr absent] at found
      contradiction
    have listed := settled.modules
    simp only at listed ⊢
    rw [listed] at known
    rw [List.map_append, List.map_singleton, eraseDups_concat, if_pos known, listed]
  stands := by
    intro module
    by_cases same : module = t.module
    · rw [same, found, now]
    · rw [settled.stands, standing_concat, if_neg (Ne.symm same)]
  records := by
    rw [filterMap_conflict_concat, ← settled.records]

theorem settled_choose {chosen : List Record × OrderedMap String Target} (settled : Settled targets chosen)
    (t : Target) : Settled (targets ++ [t]) (choose chosen t) := by
  obtain ⟨records, byModule⟩ := chosen
  have now := standing_concat targets t t.module
  rw [if_pos rfl, ← settled.stands] at now
  cases found : byModule.find? t.module with
  | none =>
    simp only [choose, found] at now ⊢
    exact settled.put now
  | some used =>
    simp only [choose, found] at now ⊢
    split
    · next takes =>
      rw [if_pos takes] at now
      exact settled.put now
    · next stays =>
      rw [if_neg stays] at now
      have skipped := settled.skip found now
      rw [conflict_of_standing now] at skipped
      split
      · next differs => rwa [if_pos differs, Option.toList_some] at skipped
      · next agrees => rwa [if_neg agrees, Option.toList_none, List.append_nil] at skipped

theorem settled_foldl (targets : List Target) : Settled targets (targets.foldl choose ([], {})) := by
  induction targets using List.reverseRecOn with
  | nil => exact ⟨rfl, fun _ => rfl, rfl⟩
  | append_singleton rest t ih =>
    rw [List.foldl_append]
    exact settled_choose ih t

theorem Settled.mem_values_iff {chosen : List Record × OrderedMap String Target}
    (settled : Settled targets chosen) : t ∈ chosen.2.values ↔ standing targets t.module = some t := by
  have distinct : chosen.2.keys.Nodup := settled.modules ▸ nodup_eraseDups _
  rw [← settled.stands]
  constructor
  · intro member
    obtain ⟨⟨module, _⟩, entry, rfl⟩ := List.mem_map.mp member
    have here := (OrderedMap.mem_entries_iff distinct).mp entry
    have named := (mem_of_standing ((settled.stands module).symm.trans here)).2
    exact named ▸ here
  · intro here
    exact List.mem_map_of_mem (OrderedMap.mem_entries_of_find? here)

theorem Settled.map_module_values {chosen : List Record × OrderedMap String Target}
    (settled : Settled targets chosen) :
    chosen.2.values.map Target.module = (targets.map Target.module).eraseDups := by
  have distinct : chosen.2.keys.Nodup := settled.modules ▸ nodup_eraseDups _
  rw [← settled.modules, OrderedMap.values, OrderedMap.keys, List.map_map]
  refine List.map_congr_left fun e member => ?_
  have here := (OrderedMap.mem_entries_iff distinct).mp member
  exact (mem_of_standing ((settled.stands e.1).symm.trans here)).2

theorem mem_onePerModule_iff : t ∈ (onePerModule targets).2 ↔ standing targets t.module = some t :=
  (settled_foldl targets).mem_values_iff

theorem map_module_onePerModule (targets : List Target) :
    (onePerModule targets).2.map Target.module = (targets.map Target.module).eraseDups :=
  (settled_foldl targets).map_module_values

/-- The chosen targets are among the given ones, and each module has exactly one of them. -/
theorem onePerModule_spec (targets : List Target) :
    (∀ t ∈ (onePerModule targets).2, t ∈ targets) ∧
    ((onePerModule targets).2.map Target.module).Nodup ∧
    ∀ t ∈ targets, t.module ∈ (onePerModule targets).2.map Target.module := by
  rw [map_module_onePerModule]
  refine ⟨fun t chosen => ?_, nodup_eraseDups _, fun t member => ?_⟩
  · exact (mem_of_standing (mem_onePerModule_iff.mp chosen)).1
  · exact List.mem_eraseDups.mpr (List.mem_map_of_mem member)

/-- A target is only warned about after the one that stands for its module was given. -/
theorem mem_of_standing_conflict {before after : List Target}
    (stands : standing (before ++ t :: after) t.module = some used) (has : t.scope ≠ none)
    (differs : t.scope ≠ used.scope) : used ∈ before := by
  obtain ⟨provider, stood, usable⟩ := standing_of_mem (List.mem_append_right before List.mem_cons_self) has
  rw [stands] at stood
  cases stood
  have first := standing_provides_iff.mp ⟨stands, usable⟩
  rw [List.find?_append] at first
  rcases Option.or_eq_some_iff.mp first with earlier | ⟨_, here⟩
  · exact List.mem_of_find?_eq_some earlier
  · rw [List.find?_cons_of_pos (provides_iff.mpr ⟨rfl, has⟩)] at here
    cases here
    exact absurd rfl differs

/-- One target stands for each module, the modules being in the order in which they come first: the first
target of the module with a scope, or the first one if none has a scope. Each later target of the module
with another scope leaves a warning that names the scope in use, and nothing else does. -/
theorem onePerModule_standing (targets : List Target) :
    (onePerModule targets).2.map Target.module = (targets.map Target.module).eraseDups ∧
    (∀ t, t ∈ (onePerModule targets).2 ↔ standing targets t.module = some t) ∧
    (onePerModule targets).1 = targets.filterMap (conflict targets) ∧
    ∀ before t after used, targets = before ++ t :: after → standing targets t.module = some used →
      t.scope ≠ none → t.scope ≠ used.scope → used ∈ before := by
  refine ⟨map_module_onePerModule targets, fun t => mem_onePerModule_iff, (settled_foldl targets).records, ?_⟩
  rintro before t after used rfl
  exact mem_of_standing_conflict

/-- The third target comes to stand for the module of the first one; the fourth is warned about. -/
example :
    let plain : Target := { module := "app.wrappers" }
    let other : Target := { module := "app.facades" }
    let provided : Target := { module := "app.wrappers", scope := some { name := "scope" } }
    let late : Target := { module := "app.wrappers", scope := some { name := "loop" } }
    onePerModule [plain, other, provided, late] = ([scopeConflict provided], [provided, other]) := rfl

end Target
end SyncFacade
