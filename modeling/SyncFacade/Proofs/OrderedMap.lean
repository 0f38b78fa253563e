import SyncFacade.OrderedMap
import Mathlib.Data.List.Induction
import Mathlib.Data.List.Nodup

/-! What a map that keeps its order tells of the entries that were put into it. For a key it has the last
value; where the key stands is settled by its first entry, and no later one moves it. -/
namespace SyncFacade

theorem reverse_find?_eq_some_iff {α : Type} {l : List α} {q : α → Bool} {a : α} :
    l.reverse.find? q = some a ↔
      q a = true ∧ ∃ before after, l = before ++ a :: after ∧ ∀ x ∈ after, ¬ q x = true := by
  rw [List.find?_eq_some_iff_append]
  apply and_congr_right
  intro _
  constructor
  · rintro ⟨later, earlier, split, free⟩
    refine ⟨earlier.reverse, later.reverse, ?_, ?_⟩
    · have back := congrArg List.reverse split
      simpa using back
    · intro x member
      simpa using free x (List.mem_reverse.mp member)
  · rintro ⟨before, after, rfl, free⟩
    refine ⟨after.reverse, before.reverse, by simp, ?_⟩
    intro x member
    simpa using free x (List.mem_reverse.mp member)

/-- In a list that is ordered by a measure, the last element of a kind is the one of the greatest
measure. -/
theorem reverse_find?_iff_of_ordered {α : Type} {l : List α} (measure : α → Nat)
    (ordered : l.Pairwise fun a b => measure a < measure b) {q : α → Bool} {a : α} :
    l.reverse.find? q = some a ↔
      a ∈ l ∧ q a = true ∧ ∀ x ∈ l, q x = true → measure x ≤ measure a := by
  rw [reverse_find?_eq_some_iff]
  constructor
  · rintro ⟨holds, before, after, rfl, free⟩
    refine ⟨by simp, holds, ?_⟩
    intro x member also
    obtain ⟨_, _, across⟩ := List.pairwise_append.mp ordered
    rcases List.mem_append.mp member with earlier | later
    · exact Nat.le_of_lt (across x earlier a List.mem_cons_self)
    · rcases List.mem_cons.mp later with rfl | behind
      · exact Nat.le_refl _
      · exact absurd also (free x behind)
  · rintro ⟨member, holds, greatest⟩
    obtain ⟨before, after, rfl⟩ := List.append_of_mem member
    refine ⟨holds, before, after, rfl, ?_⟩
    intro x behind also
    obtain ⟨_, tail, _⟩ := List.pairwise_append.mp ordered
    have above := (List.pairwise_cons.mp tail).1 x behind
    have below := greatest x (by simp [behind]) also
    omega

theorem eraseDups_concat {α : Type} [DecidableEq α] (l : List α) (a : α) :
    (l ++ [a]).eraseDups = if a ∈ l.eraseDups then l.eraseDups else l.eraseDups ++ [a] := by
  by_cases known : a ∈ l <;> simp [List.eraseDups_append, List.removeAll, known, List.eraseDups_cons]

theorem nodup_eraseDups {α : Type} [DecidableEq α] (l : List α) : l.eraseDups.Nodup := by
  induction l using List.reverseRecOn with
  | nil => exact List.nodup_nil
  | append_singleton rest a ih =>
    rw [eraseDups_concat]
    split
    · exact ih
    · next new => exact List.nodup_append_comm.mp (List.nodup_cons.mpr ⟨new, ih⟩)

namespace OrderedMap

variable {κ υ : Type}

/-- The last entry of a history for a key. -/
def LastFor (history : List (κ × υ)) (k : κ) (v : υ) : Prop :=
  ∃ before after, history = before ++ (k, v) :: after ∧ ∀ e ∈ after, e.1 ≠ k

theorem LastFor.mem {l : List (κ × υ)} {k : κ} {v : υ} (last : LastFor l k v) : (k, v) ∈ l := by
  obtain ⟨before, after, rfl, _⟩ := last
  simp

variable [DecidableEq κ]

theorem contains_iff {m : OrderedMap κ υ} {k : κ} : m.contains k = true ↔ k ∈ m.keys := by
  simp [contains, keys]

theorem find?_eq_none_iff {m : OrderedMap κ υ} {k : κ} : m.find? k = none ↔ k ∉ m.keys := by
  simp only [find?, keys, Option.map_eq_none_iff, List.find?_eq_none, decide_eq_true_eq,
    List.mem_map, not_exists, not_and]

theorem mem_entries_of_find? {m : OrderedMap κ υ} {k : κ} {v : υ} (found : m.find? k = some v) :
    (k, v) ∈ m.entries := by
  obtain ⟨e, first, rfl⟩ := Option.map_eq_some_iff.mp found
  have named : e.1 = k := by simpa using List.find?_some first
  exact named ▸ List.mem_of_find?_eq_some first

theorem mem_entries_iff {m : OrderedMap κ υ} (distinct : m.keys.Nodup) {k : κ} {v : υ} :
    (k, v) ∈ m.entries ↔ m.find? k = some v := by
  constructor
  · intro member
    have keyed : k ∈ m.keys := List.mem_map_of_mem member
    obtain ⟨w, found⟩ := Option.ne_none_iff_exists'.mp (mt find?_eq_none_iff.mp (not_not_intro keyed))
    have same := List.inj_on_of_nodup_map distinct member (mem_entries_of_find? found) rfl
    cases same
    exact found
  · exact mem_entries_of_find?

theorem keys_put (m : OrderedMap κ υ) (k : κ) (v : υ) :
    (m.put k v).keys = if k ∈ m.keys then m.keys else m.keys ++ [k] := by
  by_cases present : k ∈ m.keys
  · rw [if_pos present, put, if_pos (contains_iff.mpr present)]
    simp only [keys, List.map_map]
    apply List.map_congr_left
    intro e _
    by_cases same : e.1 = k <;> simp [same]
  · rw [if_neg present, put, if_neg (mt contains_iff.mp present)]
    simp [keys]

theorem nodup_keys_put {m : OrderedMap κ υ} (distinct : m.keys.Nodup) (k : κ) (v : υ) :
    (m.put k v).keys.Nodup := by
  rw [keys_put]
  by_cases present : k ∈ m.keys
  · rwa [if_pos present]
  · rw [if_neg present]
    refine List.nodup_append.mpr ⟨distinct, List.nodup_singleton _, ?_⟩
    intro a member b last same
    cases List.mem_singleton.mp last
    exact present (same ▸ member)

theorem nodup_keys_erase {m : OrderedMap κ υ} (distinct : m.keys.Nodup) (k : κ) :
    (m.erase k).keys.Nodup :=
  distinct.sublist (List.filter_sublist.map _)

theorem find?_replaced (l : List (κ × υ)) (k j : κ) (v : υ) :
    find? ⟨l.map fun e => if e.1 = k then (k, v) else e⟩ j =
      if j = k then (find? ⟨l⟩ k).map fun _ => v else find? ⟨l⟩ j := by
  induction l with
  | nil => simp [find?]
  | cons e rest ih =>
    simp only [find?, List.map_cons, List.find?_cons] at ih ⊢
    by_cases here : e.1 = k
    · by_cases same : j = k
      · simp [here, same]
      · simpa [here, same, Ne.symm same] using ih
    · by_cases same : j = k
      · subst same
        simpa [here] using ih
      · by_cases found : e.1 = j
        · simp [found, same]
        · simpa [here, found, same] using ih

theorem find?_put (m : OrderedMap κ υ) (k j : κ) (v : υ) :
    (m.put k v).find? j = if j = k then some v else m.find? j := by
  by_cases present : k ∈ m.keys
  · obtain ⟨old, found⟩ :=
      Option.ne_none_iff_exists'.mp (mt find?_eq_none_iff.mp (not_not_intro present))
    rw [put, if_pos (contains_iff.mpr present), find?_replaced, found]
    rfl
  · have absent := find?_eq_none_iff.mpr present
    rw [put, if_neg (mt contains_iff.mp present)]
    simp only [find?, List.find?_append, Option.map_or] at absent ⊢
    by_cases same : j = k
    · simp [same, absent]
    · simp [same, Ne.symm same]

/-- What does not look like the entry that is put in is kept, but for the entry that this replaces. -/
theorem filter_put (m : OrderedMap κ υ) {k : κ} {v : υ} {q : κ × υ → Bool} (out : q (k, v) = false) :
    (m.put k v).entries.filter q = m.entries.filter fun e => q e && decide (e.1 ≠ k) := by
  by_cases present : m.contains k = true
  · rw [put, if_pos present]
    simp only [List.filter_map]
    induction m.entries with
    | nil => rfl
    | cons e rest ih =>
      by_cases here : e.1 = k
      · simpa [List.filter_cons, here, out] using ih
      · by_cases kept : q e = true
        · simpa [List.filter_cons, here, kept] using ih
        · simpa [List.filter_cons, here, kept] using ih
  · rw [put, if_neg present, List.filter_append, List.filter_singleton, out]
    simp only [cond_false, List.append_nil]
    apply List.filter_congr
    intro e member
    have other : e.1 ≠ k := by
      rintro rfl
      exact present (List.any_eq_true.mpr ⟨e, member, by simp⟩)
    simp [other]

theorem filter_put_of_out (m : OrderedMap κ υ) {k : κ} {v : υ} {q : κ × υ → Bool}
    (out : q (k, v) = false) (old : ∀ w, (k, w) ∈ m.entries → q (k, w) = false) :
    (m.put k v).entries.filter q = m.entries.filter q := by
  rw [filter_put m out]
  apply List.filter_congr
  rintro ⟨j, w⟩ member
  by_cases same : j = k
  · subst same
    simp [old w member]
  · simp [same]

theorem reverse_find?_put (m : OrderedMap κ υ) {k : κ} {v : υ} {q : κ × υ → Bool}
    (out : q (k, v) = false) :
    (m.put k v).entries.reverse.find? q =
      m.entries.reverse.find? fun e => q e && decide (e.1 ≠ k) := by
  rw [← List.head?_filter, List.filter_reverse, filter_put m out, ← List.filter_reverse,
    List.head?_filter]

theorem find?_putAll (m : OrderedMap κ υ) (l : List (κ × υ)) (k : κ) :
    (m.putAll l).find? k =
      ((l.reverse.find? fun e => decide (e.1 = k)).map Prod.snd).or (m.find? k) := by
  induction l generalizing m with
  | nil => simp [putAll]
  | cons e rest ih =>
    have step : m.putAll (e :: rest) = (m.put e.1 e.2).putAll rest := rfl
    rw [step, ih, find?_put, List.reverse_cons, List.find?_append]
    cases rest.reverse.find? fun e => decide (e.1 = k) with
    | some d => simp
    | none =>
      by_cases here : e.1 = k
      · simp [here]
      · simp [here, Ne.symm here]

theorem find?_ofList (l : List (κ × υ)) (k : κ) :
    (ofList l).find? k = (l.reverse.find? fun e => decide (e.1 = k)).map Prod.snd := by
  rw [ofList, find?_putAll]
  simp [find?]

theorem find?_ofList_append (l u : List (κ × υ)) (k : κ) :
    (ofList (l ++ u)).find? k = ((ofList u).find? k).or ((ofList l).find? k) := by
  simp only [find?_ofList, List.reverse_append, List.find?_append, Option.map_or]

theorem ofList_concat (l : List (κ × υ)) (e : κ × υ) :
    ofList (l ++ [e]) = (ofList l).put e.1 e.2 := by
  simp [ofList, putAll]

theorem find?_ofList_iff {l : List (κ × υ)} {k : κ} {v : υ} :
    (ofList l).find? k = some v ↔ LastFor l k v := by
  rw [find?_ofList, Option.map_eq_some_iff]
  simp only [reverse_find?_eq_some_iff, decide_eq_true_eq]
  constructor
  · rintro ⟨e, ⟨rfl, last⟩, rfl⟩
    exact last
  · intro last
    exact ⟨(k, v), ⟨rfl, last⟩, rfl⟩

theorem find?_ofList_map {α : Type} (l : List α) (q : α → Bool) (name : α → κ) (view : α → υ) (k : κ) :
    (ofList ((l.filter q).map fun a => (name a, view a))).find? k =
      (l.reverse.find? fun a => q a && decide (name a = k)).map view := by
  rw [find?_ofList, ← List.map_reverse, ← List.filter_reverse, List.find?_map, List.find?_filter,
    Option.map_map]
  simp [Function.comp_def]

theorem mem_keys_ofList {l : List (κ × υ)} {k : κ} : k ∈ (ofList l).keys ↔ k ∈ l.map Prod.fst := by
  rw [← not_iff_not, ← find?_eq_none_iff, find?_ofList, Option.map_eq_none_iff, List.find?_eq_none]
  simp only [List.mem_reverse, decide_eq_true_eq, List.mem_map, not_exists, not_and]

theorem find?_ofList_eq_none {l : List (κ × υ)} {k : κ} (absent : k ∉ l.map Prod.fst) :
    (ofList l).find? k = none :=
  find?_eq_none_iff.mpr (mt mem_keys_ofList.mp absent)

/-- Blocks of entries that share no key can be put in any order. -/
theorem find?_ofList_flatMap_perm {α : Type} {l u : List α} (f : α → List (κ × υ)) (perm : l.Perm u)
    (apart : l.Pairwise fun a b => ∀ k, k ∈ (f a).map Prod.fst → k ∉ (f b).map Prod.fst) (k : κ) :
    (ofList (l.flatMap f)).find? k = (ofList (u.flatMap f)).find? k := by
  induction perm with
  | nil => rfl
  | cons a _ ih =>
    have rest := ih (List.pairwise_cons.mp apart).2
    simp only [List.flatMap_cons, find?_ofList_append, rest]
  | swap a b rest =>
    have separate := (List.pairwise_cons.mp apart).1 a List.mem_cons_self k
    simp only [List.flatMap_cons, find?_ofList_append]
    by_cases inside : k ∈ (f b).map Prod.fst
    · rw [find?_ofList_eq_none (separate inside)]
      simp
    · rw [find?_ofList_eq_none inside]
      simp
  | trans first _ before after =>
    have moved := (first.pairwise_iff fun separate k here there => separate k there here).mp apart
    exact (before apart).trans (after moved)

theorem nodup_keys_ofList (l : List (κ × υ)) : (ofList l).keys.Nodup := by
  induction l using List.reverseRecOn with
  | nil => simp [ofList, putAll, keys]
  | append_singleton rest e ih =>
    rw [ofList_concat]
    exact nodup_keys_put ih e.1 e.2

theorem mem_ofList_iff {l : List (κ × υ)} {k : κ} {v : υ} :
    (k, v) ∈ (ofList l).entries ↔ LastFor l k v := by
  rw [mem_entries_iff (nodup_keys_ofList l), find?_ofList_iff]

theorem ofList_of_nodup {l : List (κ × υ)} (distinct : (l.map Prod.fst).Nodup) : ofList l = ⟨l⟩ := by
  induction l using List.reverseRecOn with
  | nil => rfl
  | append_singleton rest e ih =>
    rw [List.map_append, List.nodup_append] at distinct
    obtain ⟨front, _, across⟩ := distinct
    have new : ¬ (ofList rest).contains e.1 = true := by
      rw [contains_iff, mem_keys_ofList]
      intro present
      exact across e.1 present e.1 (by simp) rfl
    rw [ofList_concat, put, if_neg new, ih front]

theorem ofList_entries_ofList (l : List (κ × υ)) : ofList (ofList l).entries = ofList l :=
  ofList_of_nodup (nodup_keys_ofList l)

/-- The entries stand in the order in which their keys came first. -/
theorem entries_ordered (l : List (κ × υ)) :
    (ofList l).entries.Pairwise fun a b =>
      (l.map Prod.fst).idxOf a.1 < (l.map Prod.fst).idxOf b.1 := by
  suffices ordered : (ofList l).keys.Pairwise fun a b =>
      (l.map Prod.fst).idxOf a < (l.map Prod.fst).idxOf b by
    rw [keys, List.pairwise_map] at ordered
    exact ordered
  induction l using List.reverseRecOn with
  | nil => simp [ofList, putAll, keys]
  | append_singleton rest e ih =>
    have kept : (ofList rest).keys.Pairwise fun a b =>
        ((rest ++ [e]).map Prod.fst).idxOf a < ((rest ++ [e]).map Prod.fst).idxOf b := by
      refine ih.imp_of_mem fun {a b} first second before => ?_
      rw [List.map_append, List.idxOf_append_of_mem (mem_keys_ofList.mp first),
        List.idxOf_append_of_mem (mem_keys_ofList.mp second)]
      exact before
    rw [ofList_concat, keys_put]
    by_cases present : e.1 ∈ (ofList rest).keys
    · rwa [if_pos present]
    · rw [if_neg present, List.pairwise_append]
      refine ⟨kept, by simp, ?_⟩
      intro a member b last
      cases List.mem_singleton.mp last
      rw [List.map_append, List.idxOf_append_of_mem (mem_keys_ofList.mp member),
        List.idxOf_append_of_notMem (mt mem_keys_ofList.mpr present)]
      have within := List.idxOf_lt_length_iff.mpr (mem_keys_ofList.mp member)
      omega

/-- Of the entries of a kind the last one is that whose key came first after all the others. -/
theorem reverse_find?_ofList_iff {l : List (κ × υ)} {q : κ × υ → Bool} {k : κ} {v : υ} :
    (ofList l).entries.reverse.find? q = some (k, v) ↔
      LastFor l k v ∧ q (k, v) = true ∧ ∀ d w, LastFor l d w → q (d, w) = true →
        (l.map Prod.fst).idxOf d ≤ (l.map Prod.fst).idxOf k := by
  rw [reverse_find?_iff_of_ordered (fun e => (l.map Prod.fst).idxOf e.1) (entries_ordered l),
    Prod.forall]
  simp only [mem_ofList_iff]

end OrderedMap
end SyncFacade
