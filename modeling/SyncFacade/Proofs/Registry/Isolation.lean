import SyncFacade.Proofs.Registry.History

/-! What a registration does to the targets it is not made for. The entry of a class names one target only,
so a class that another target shows is taken from it. Nothing else that the other targets show changes. -/
namespace SyncFacade

namespace Registration

variable {κ : Type}

def target : Registration κ → String
  | .wrapClass target .. => target
  | .wrapInterface target .. => target

/-- The class or protocol that is registered is registered for the given target already. -/
def HeldBy (r : Registry κ) (target : String) : Registration κ → Prop
  | .wrapClass _ key .. => ∃ e, (key, e) ∈ r.classes.entries ∧ e.target = target
  | .wrapInterface _ key .. => ∃ e, (key, e) ∈ r.interfaces.entries ∧ e.target = target

def ShownBy (r : Registry κ) (target : String) : Registration κ → Prop
  | .wrapClass _ key .. => ∃ name interface, (r.classesOf target).find? name = some (key, interface)
  | .wrapInterface _ key .. => ∃ name, (r.interfacesOf target).find? name = some key

end Registration

namespace Registry

variable {κ : Type}

/-- Two registries show the same for a target: the same names, and the same under each of them. -/
structure SameFor (target : String) (r s : Registry κ) : Prop where
  classes (name : String) : (r.classesOf target).find? name = (s.classesOf target).find? name
  interfaces (name : String) : (r.interfacesOf target).find? name = (s.interfacesOf target).find? name
  items (name : String) : (r.itemsOf target).find? name = (s.itemsOf target).find? name

/-- An item is the interface of its name, or else the class. -/
theorem itemsOf_find? (r : Registry κ) (target name : String) :
    (r.itemsOf target).find? name =
      ((r.interfacesOf target).find? name).or (((r.classesOf target).find? name).map Prod.fst) := by
  have again : OrderedMap.ofList (r.interfacesOf target).entries = r.interfacesOf target :=
    OrderedMap.ofList_entries_ofList _
  have classAgain : OrderedMap.ofList (r.classesOf target).entries = r.classesOf target :=
    OrderedMap.ofList_entries_ofList _
  rw [itemsOf, OrderedMap.find?_putAll, ← OrderedMap.find?_ofList, again, ← classAgain,
    OrderedMap.find?_ofList, OrderedMap.find?_ofList, ← List.map_reverse, List.find?_map, classAgain,
    Option.map_map, Option.map_map]
  rfl

theorem SameFor.of_parts {target : String} {r s : Registry κ}
    (classes : ∀ name, (r.classesOf target).find? name = (s.classesOf target).find? name)
    (interfaces : ∀ name, (r.interfacesOf target).find? name = (s.interfacesOf target).find? name) :
    SameFor target r s where
  classes := classes
  interfaces := interfaces
  items name := by rw [itemsOf_find?, itemsOf_find?, classes, interfaces]

theorem heldBy_of_shownBy {r : Registry κ} {target : String} {call : Registration κ}
    (shown : call.ShownBy r target) : call.HeldBy r target := by
  cases call with
  | wrapClass _ key =>
    obtain ⟨name, interface, found⟩ := shown
    exact ⟨_, mem_classes_of_shown found, rfl⟩
  | wrapInterface _ key =>
    obtain ⟨name, found⟩ := shown
    exact ⟨_, mem_interfaces_of_shown found, rfl⟩

variable [DecidableEq κ]

/-- Leaving out the entries of a key is seen where the first entry of the kind is one of them. -/
theorem find?_without_iff {ε υ : Type} (l : List (κ × ε)) (q : κ × ε → Bool) (view : κ × ε → υ)
    (tells : ∀ c d, view c = view d → c.1 = d.1) (key : κ) :
    (l.find? fun e => q e && decide (e.1 ≠ key)).map view = (l.find? q).map view ↔
      ∀ e, l.find? q = some e → e.1 ≠ key := by
  constructor
  · intro same e found named
    rw [found, Option.map_some, Option.map_eq_some_iff] at same
    obtain ⟨d, instead, alike⟩ := same
    have kept := List.find?_some instead
    simp only [Bool.and_eq_true, decide_eq_true_eq] at kept
    exact kept.2 ((tells d e alike).trans named)
  · intro others
    cases found : l.find? q with
    | none =>
      have nothing : (l.find? fun e => q e && decide (e.1 ≠ key)) = none := by
        rw [List.find?_eq_none] at found ⊢
        intro e member
        simp [found e member]
      rw [nothing]
    | some e =>
      obtain ⟨holds, before, after, split, free⟩ := List.find?_eq_some_iff_append.mp found
      have kept : (l.find? fun e => q e && decide (e.1 ≠ key)) = some e := by
        refine List.find?_eq_some_iff_append.mpr ⟨?_, before, after, split, ?_⟩
        · simp [holds, others e found]
        · intro d earlier
          have fails := free d earlier
          simp_all
      rw [kept]

section Other

variable (r : Registry κ) {target other : String} (apart : other ≠ target) (key : κ) (className : String)
  (name : Option String)

include apart

theorem classesOf_wrapClass_iff (interface : Option String) (shown : String) :
    ((r.wrapClass target key className name interface).classesOf other).find? shown =
        (r.classesOf other).find? shown ↔
      ∀ i, (r.classesOf other).find? shown ≠ some (key, i) := by
  rw [classesOf_find?, classesOf_find?, wrapClass, OrderedMap.reverse_find?_put _ (by simp [apart.symm]),
    find?_without_iff _ _ _ (fun _ _ same => (Prod.mk.inj same).1)]
  constructor
  · intro absent i found
    obtain ⟨e, first, same⟩ := Option.map_eq_some_iff.mp found
    exact absent e first (Prod.mk.inj same).1
  · rintro absent e first rfl
    exact absent e.2.interface (by rw [first]; rfl)

theorem interfacesOf_wrapInterface_iff (shown : String) :
    ((r.wrapInterface target key className name).interfacesOf other).find? shown =
        (r.interfacesOf other).find? shown ↔
      (r.interfacesOf other).find? shown ≠ some key := by
  rw [interfacesOf_find?, interfacesOf_find?, wrapInterface,
    OrderedMap.reverse_find?_put _ (by simp [apart.symm]), find?_without_iff _ _ _ (fun _ _ same => same)]
  constructor
  · intro absent found
    obtain ⟨e, first, same⟩ := Option.map_eq_some_iff.mp found
    exact absent e first same
  · rintro absent e first rfl
    exact absent (by rw [first]; rfl)

theorem classesOf_wrapClass_of_free (interface : Option String)
    (free : ∀ e, (key, e) ∈ r.classes.entries → e.target ≠ other) :
    (r.wrapClass target key className name interface).classesOf other = r.classesOf other := by
  rw [classesOf, classesOf, wrapClass, OrderedMap.filter_put_of_out _ (by simp [apart.symm])]
  intro e member
  simp [free e member]

theorem interfacesOf_wrapInterface_of_free
    (free : ∀ e, (key, e) ∈ r.interfaces.entries → e.target ≠ other) :
    (r.wrapInterface target key className name).interfacesOf other = r.interfacesOf other := by
  rw [interfacesOf, interfacesOf, wrapInterface, OrderedMap.filter_put_of_out _ (by simp [apart.symm])]
  intro e member
  simp [free e member]

end Other

/-- A registration changes nothing for another target that does not hold its class, not even an order. What
another target shows by name stays the same exactly when the class is not among it. -/
theorem registration_isolated_iff (r : Registry κ) (call : Registration κ) {other : String}
    (apart : other ≠ call.target) :
    (¬ call.HeldBy r other →
      (r.register call).classesOf other = r.classesOf other ∧
      (r.register call).interfacesOf other = r.interfacesOf other ∧
      (r.register call).itemsOf other = r.itemsOf other) ∧
    (SameFor other (r.register call) r ↔ ¬ call.ShownBy r other) := by
  cases call with
  | wrapClass target key className name interface =>
    have interfaces : (r.register (.wrapClass target key className name interface)).interfacesOf other =
        r.interfacesOf other := rfl
    constructor
    · intro free
      have classes : (r.register (.wrapClass target key className name interface)).classesOf other =
          r.classesOf other :=
        classesOf_wrapClass_of_free r apart key className name interface
          fun e member held => free ⟨e, member, held⟩
      exact ⟨classes, interfaces, by rw [itemsOf, itemsOf, classes, interfaces]⟩
    · constructor
      · rintro same ⟨shown, i, found⟩
        exact (classesOf_wrapClass_iff r apart key className name interface shown).mp
          (same.classes shown) i found
      · intro hidden
        refine .of_parts (fun shown => ?_) fun shown => by rw [interfaces]
        exact (classesOf_wrapClass_iff r apart key className name interface shown).mpr
          fun i found => hidden ⟨shown, i, found⟩
  | wrapInterface target key className name =>
    have classes : (r.register (.wrapInterface target key className name)).classesOf other =
        r.classesOf other := rfl
    constructor
    · intro free
      have interfaces : (r.register (.wrapInterface target key className name)).interfacesOf other =
          r.interfacesOf other :=
        interfacesOf_wrapInterface_of_free r apart key className name
          fun e member held => free ⟨e, member, held⟩
      exact ⟨classes, interfaces, by rw [itemsOf, itemsOf, classes, interfaces]⟩
    · constructor
      · rintro same ⟨shown, found⟩
        exact (interfacesOf_wrapInterface_iff r apart key className name shown).mp
          (same.interfaces shown) found
      · intro hidden
        refine .of_parts (fun shown => by rw [classes]) fun shown => ?_
        exact (interfacesOf_wrapInterface_iff r apart key className name shown).mpr
          fun found => hidden ⟨shown, found⟩

/-- A class that is wrapped for one target, and a registration for another one. -/
def wrappedOnce : Registry Nat :=
  registerAll {} [.wrapClass "app.wrappers" 0 "Store" none none]

def elsewhere (key : Nat) : Registration Nat := .wrapClass "app.facades" key "Store" none none

/-- A class of the same name does not get in the way. -/
theorem namesake_leaves_target :
    "app.wrappers" ≠ (elsewhere 1).target ∧
      (wrappedOnce.register (elsewhere 1)).classesOf "app.wrappers" = wrappedOnce.classesOf "app.wrappers" ∧
      SameFor "app.wrappers" (wrappedOnce.register (elsewhere 1)) wrappedOnce := by
  have apart : "app.wrappers" ≠ (elsewhere 1).target := by decide
  have free : ¬ (elsewhere 1).HeldBy wrappedOnce "app.wrappers" := by
    rintro ⟨e, member, _⟩
    cases List.mem_singleton.mp member
  obtain ⟨unchanged, same⟩ := registration_isolated_iff wrappedOnce (elsewhere 1) apart
  exact ⟨apart, (unchanged free).1, same.mpr (mt heldBy_of_shownBy free)⟩

/-- A class that is wrapped for a second target is no longer wrapped for the first. -/
theorem second_target_takes_class :
    (wrappedOnce.classesOf "app.wrappers").find? "StoreWrapper" = some (0, none) ∧
      ((wrappedOnce.register (elsewhere 0)).classesOf "app.wrappers").find? "StoreWrapper" = none := by
  decide

end Registry
end SyncFacade
