import SyncFacade.Proofs.OrderedMap
import SyncFacade.Registry

/-! Registrations one after the other, and what a target shows of them by name. A class that is registered
again keeps its place among the classes. So of several classes under one name it is not the one registered
last that is shown, but the one whose first registration came last. -/
namespace SyncFacade

/-- A class or a protocol that is marked through a target. -/
inductive Registration (κ : Type) where
  | wrapClass (target : String) (key : κ) (className : String) (name interface : Option String)
  | wrapInterface (target : String) (key : κ) (className : String) (name : Option String)

namespace Registration

variable {κ : Type}

def classEntry? : Registration κ → Option (κ × ClassEntry)
  | .wrapClass target key className name interface =>
    some (key, { target, name := Registry.generatedName className name, interface })
  | .wrapInterface .. => none

def interfaceEntry? : Registration κ → Option (κ × InterfaceEntry)
  | .wrapClass .. => none
  | .wrapInterface target key className name =>
    some (key, { target, name := Registry.generatedName className name })

/-- The entries that some registrations make for classes, oldest first. -/
def classHistory (calls : List (Registration κ)) : List (κ × ClassEntry) :=
  calls.filterMap classEntry?

def interfaceHistory (calls : List (Registration κ)) : List (κ × InterfaceEntry) :=
  calls.filterMap interfaceEntry?

end Registration

namespace Registry

section Names

variable {κ : Type}

theorem classesOf_find? (r : Registry κ) (target name : String) :
    (r.classesOf target).find? name =
      (r.classes.entries.reverse.find? fun e =>
        decide (e.2.target = target) && decide (e.2.name = name)).map fun e => (e.1, e.2.interface) :=
  OrderedMap.find?_ofList_map _ _ _ _ _

theorem interfacesOf_find? (r : Registry κ) (target name : String) :
    (r.interfacesOf target).find? name =
      (r.interfaces.entries.reverse.find? fun e =>
        decide (e.2.target = target) && decide (e.2.name = name)).map Prod.fst :=
  OrderedMap.find?_ofList_map _ _ _ _ _

theorem mem_classes_of_shown {r : Registry κ} {target name : String} {key : κ} {interface : Option String}
    (shown : (r.classesOf target).find? name = some (key, interface)) :
    (key, ClassEntry.mk target name interface) ∈ r.classes.entries := by
  rw [classesOf_find?, Option.map_eq_some_iff] at shown
  obtain ⟨⟨_, e⟩, last, same⟩ := shown
  cases same
  have held := List.find?_some last
  simp only [Bool.and_eq_true, decide_eq_true_eq] at held
  obtain ⟨rfl, rfl⟩ := held
  exact List.mem_reverse.mp (List.mem_of_find?_eq_some last)

theorem mem_interfaces_of_shown {r : Registry κ} {target name : String} {key : κ}
    (shown : (r.interfacesOf target).find? name = some key) :
    (key, InterfaceEntry.mk target name) ∈ r.interfaces.entries := by
  rw [interfacesOf_find?, Option.map_eq_some_iff] at shown
  obtain ⟨⟨_, e⟩, last, rfl⟩ := shown
  have held := List.find?_some last
  simp only [Bool.and_eq_true, decide_eq_true_eq] at held
  obtain ⟨rfl, rfl⟩ := held
  exact List.mem_reverse.mp (List.mem_of_find?_eq_some last)

end Names

variable {κ : Type} [DecidableEq κ]

def register (r : Registry κ) : Registration κ → Registry κ
  | .wrapClass target key className name interface => r.wrapClass target key className name interface
  | .wrapInterface target key className name => r.wrapInterface target key className name

def registerAll (r : Registry κ) (calls : List (Registration κ)) : Registry κ :=
  calls.foldl register r

theorem registerAll_cons (r : Registry κ) (call : Registration κ) (rest : List (Registration κ)) :
    r.registerAll (call :: rest) = (r.register call).registerAll rest := rfl

theorem registerAll_classes (r : Registry κ) (calls : List (Registration κ)) :
    (r.registerAll calls).classes = r.classes.putAll (Registration.classHistory calls) := by
  induction calls generalizing r with
  | nil => rfl
  | cons call rest ih =>
    rw [registerAll_cons, ih]
    cases call <;> rfl

theorem registerAll_interfaces (r : Registry κ) (calls : List (Registration κ)) :
    (r.registerAll calls).interfaces = r.interfaces.putAll (Registration.interfaceHistory calls) := by
  induction calls generalizing r with
  | nil => rfl
  | cons call rest ih =>
    rw [registerAll_cons, ih]
    cases call <;> rfl

end Registry

section Recency

variable {κ ε : Type}

/-- The last registration under a name, of a class that is not registered again. -/
def MostRecent (history : List (κ × ε)) (named : ε → Prop) (key : κ) (e : ε) : Prop :=
  ∃ before after, history = before ++ (key, e) :: after ∧ named e ∧
    ∀ d ∈ after, d.1 ≠ key ∧ ¬ named d.2

theorem MostRecent.lastFor {history : List (κ × ε)} {named : ε → Prop} {key : κ} {e : ε}
    (recent : MostRecent history named key e) : OrderedMap.LastFor history key e := by
  obtain ⟨before, after, split, _, free⟩ := recent
  exact ⟨before, after, split, fun d member => (free d member).1⟩

theorem MostRecent.named {history : List (κ × ε)} {named : ε → Prop} {key : κ} {e : ε}
    (recent : MostRecent history named key e) : named e := by
  obtain ⟨_, _, _, holds, _⟩ := recent
  exact holds

variable [DecidableEq κ]

/-- Another class has the name as well, from its own last registration, and was registered for the first
time only after the given one was. -/
def Overtaken (history : List (κ × ε)) (named : ε → Prop) (key : κ) : Prop :=
  ∃ d e, OrderedMap.LastFor history d e ∧ named e ∧
    (history.map Prod.fst).idxOf key < (history.map Prod.fst).idxOf d

theorem shown_iff_not_overtaken {υ : Type} {history : List (κ × ε)} {q : κ × ε → Bool}
    {named : ε → Prop} (decides : ∀ d, q d = true ↔ named d.2) (view : κ × ε → υ)
    (tells : ∀ c d, view c = view d → c.1 = d.1) {key : κ} {e : ε}
    (recent : MostRecent history named key e) :
    ((OrderedMap.ofList history).entries.reverse.find? q).map view = some (view (key, e)) ↔
      ¬ Overtaken history named key := by
  have last := recent.lastFor
  constructor
  · rintro shown ⟨d, f, latest, also, after⟩
    obtain ⟨⟨c, g⟩, found, same⟩ := Option.map_eq_some_iff.mp shown
    cases tells _ _ same
    obtain ⟨_, _, greatest⟩ := OrderedMap.reverse_find?_ofList_iff.mp found
    have bound := greatest d f latest ((decides (d, f)).mpr also)
    omega
  · intro ahead
    have found : (OrderedMap.ofList history).entries.reverse.find? q = some (key, e) := by
      refine OrderedMap.reverse_find?_ofList_iff.mpr ⟨last, (decides _).mpr recent.named, ?_⟩
      intro d f latest also
      by_contra beyond
      exact ahead ⟨d, f, latest, (decides _).mp also, Nat.lt_of_not_le beyond⟩
    rw [found]
    rfl

def ClassEntry.Named (target name : String) (e : ClassEntry) : Prop :=
  e.target = target ∧ e.name = name

def InterfaceEntry.Named (target name : String) (e : InterfaceEntry) : Prop :=
  e.target = target ∧ e.name = name

/-- The most recent registration of a name is the one that its target shows exactly when no other class that
has the name came in later for the first time. -/
theorem most_recent_shown_iff (calls : List (Registration κ)) (target name : String) :
    (∀ key e, MostRecent (Registration.classHistory calls) (ClassEntry.Named target name) key e →
      (((Registry.registerAll {} calls).classesOf target).find? name = some (key, e.interface) ↔
        ¬ Overtaken (Registration.classHistory calls) (ClassEntry.Named target name) key)) ∧
    (∀ key e, MostRecent (Registration.interfaceHistory calls) (InterfaceEntry.Named target name) key e →
      (((Registry.registerAll {} calls).interfacesOf target).find? name = some key ↔
        ¬ Overtaken (Registration.interfaceHistory calls) (InterfaceEntry.Named target name) key)) := by
  constructor
  · intro key e recent
    rw [Registry.classesOf_find?, Registry.registerAll_classes]
    refine shown_iff_not_overtaken (fun d => ?_) (fun d => (d.1, d.2.interface))
      (fun _ _ same => (Prod.mk.inj same).1) recent
    simp [ClassEntry.Named]
  · intro key e recent
    rw [Registry.interfacesOf_find?, Registry.registerAll_interfaces]
    refine shown_iff_not_overtaken (fun d => ?_) Prod.fst (fun _ _ same => same) recent
    simp [InterfaceEntry.Named]

end Recency

/-- Two classes under one name; the first of them may come again at the end. -/
def rivals (again : Bool) : List (Registration Nat) :=
  [.wrapClass "app.wrappers" 0 "SqlStore" (some "Store") none,
    .wrapClass "app.wrappers" 1 "FileStore" (some "Store") (some "StoreInterface")] ++
  if again then [.wrapClass "app.wrappers" 0 "SqlStore" (some "Store") none] else []

theorem second_rival_recent :
    MostRecent (Registration.classHistory (rivals false)) (ClassEntry.Named "app.wrappers" "Store") 1
      { target := "app.wrappers", name := "Store", interface := some "StoreInterface" } :=
  ⟨[(0, { target := "app.wrappers", name := "Store" })], [], by decide, ⟨rfl, rfl⟩, by simp⟩

/-- A class that is new under a name takes it over. -/
theorem second_rival_shown :
    MostRecent (Registration.classHistory (rivals false)) (ClassEntry.Named "app.wrappers" "Store") 1
        { target := "app.wrappers", name := "Store", interface := some "StoreInterface" } ∧
      ((Registry.registerAll {} (rivals false)).classesOf "app.wrappers").find? "Store" =
        some (1, some "StoreInterface") := by
  refine ⟨second_rival_recent,
    ((most_recent_shown_iff (rivals false) "app.wrappers" "Store").1 1 _ second_rival_recent).mpr ?_⟩
  rintro ⟨d, e, last, _, after⟩
  have either : d ∈ (Registration.classHistory (rivals false)).map Prod.fst :=
    List.mem_map_of_mem last.mem
  have order : ∀ d ∈ (Registration.classHistory (rivals false)).map Prod.fst,
      ¬ ((Registration.classHistory (rivals false)).map Prod.fst).idxOf 1 <
      ((Registration.classHistory (rivals false)).map Prod.fst).idxOf d := by decide
  exact order d either after

/-- A class that takes a name back is not shown under it. -/
theorem returning_rival_not_shown :
    MostRecent (Registration.classHistory (rivals true)) (ClassEntry.Named "app.wrappers" "Store") 0
        { target := "app.wrappers", name := "Store" } ∧
      ((Registry.registerAll {} (rivals true)).classesOf "app.wrappers").find? "Store" =
        some (1, some "StoreInterface") :=
  ⟨⟨Registration.classHistory (rivals false), [], by decide, ⟨rfl, rfl⟩, by simp⟩, by decide⟩

end SyncFacade
