import SyncFacade.Log
import Mathlib.Data.List.Forall2

/-! Computations made for each element of a list, one after the other. Where every element succeeds the
results are those of the elements; where one fails, everything before it has been done, and nothing
after it. -/
namespace SyncFacade

theorem mapM_eq_pure {m : Type → Type} [Monad m] [LawfulMonad m] {α β : Type} {l : List α}
    {f : α → m β} {g : α → β} (each : ∀ x ∈ l, f x = pure (g x)) : l.mapM f = pure (l.map g) := by
  induction l with
  | nil => simp
  | cons x rest ih =>
    have head := each x List.mem_cons_self
    have tail := ih fun y member => each y (List.mem_cons_of_mem x member)
    simp only [List.mapM_cons, head, tail, pure_bind, List.map_cons]

theorem exists_of_map_ok {ε α β : Type} {x : Except ε α} {f : α → β} {b : β}
    (done : x.map f = .ok b) : ∃ a, x = .ok a ∧ b = f a := by
  cases x with
  | error e => contradiction
  | ok a => exact ⟨a, rfl, (Except.ok.inj done).symm⟩

theorem exists_of_bind_eq_ok {ε α β : Type} {x : Except ε α} {f : α → Except ε β} {b : β}
    (done : x >>= f = .ok b) : ∃ a, x = .ok a ∧ f a = .ok b := by
  cases x with
  | error e => contradiction
  | ok a => exact ⟨a, rfl, done⟩

theorem exists_of_isOk {ε α : Type} {x : Except ε α} (done : x.isOk = true) : ∃ a, x = .ok a := by
  cases x with
  | error e => contradiction
  | ok a => exact ⟨a, rfl⟩

theorem mapM_ok_iff {ε α β : Type} {f : α → Except ε β} {l : List α} {r : List β} :
    l.mapM f = .ok r ↔ List.Forall₂ (fun x y => f x = .ok y) l r := by
  induction l generalizing r with
  | nil => cases r <;> simp [pure, Except.pure]
  | cons x rest ih =>
    rw [List.mapM_cons]
    cases head : f x with
    | error e => cases r <;> simp [head, bind, Except.bind]
    | ok v =>
      cases tail : rest.mapM f with
      | error e => cases r <;> simp [head, tail, bind, Except.bind, ← ih]
      | ok vs => cases r <;> simp [head, tail, bind, Except.bind, pure, Except.pure, ← ih]

theorem mapM_map {ε α β γ : Type} (l : List α) (f : α → Except ε β) (g : β → γ) :
    (l.mapM fun x => (f x).map g) = (l.mapM f).map (List.map g) := by
  induction l with
  | nil => rfl
  | cons x rest ih =>
    rw [List.mapM_cons, List.mapM_cons, ih]
    cases f x with
    | error e => rfl
    | ok v => cases rest.mapM f <;> rfl

theorem exists_related_right {α β : Type} {r : α → β → Prop} {l : List α} {u : List β}
    (related : List.Forall₂ r l u) : ∀ a ∈ l, ∃ b ∈ u, r a b := by
  intro a member
  obtain ⟨i, bound, rfl⟩ := List.mem_iff_getElem.mp member
  have within : i < u.length := related.length_eq ▸ bound
  exact ⟨u[i], List.getElem_mem within, related.get bound within⟩

theorem exists_related_left {α β : Type} {r : α → β → Prop} {l : List α} {u : List β}
    (related : List.Forall₂ r l u) : ∀ b ∈ u, ∃ a ∈ l, r a b :=
  exists_related_right related.flip

theorem map_eq_map_of_related {α β γ : Type} {f : α → γ} {g : β → γ} {l : List α} {u : List β}
    (related : List.Forall₂ (fun a b => f a = g b) l u) : l.map f = u.map g := by
  rw [← List.forall₂_eq_eq_eq, List.forall₂_map_left_iff, List.forall₂_map_right_iff]
  exact related

theorem related_imp {α β : Type} {r s : α → β → Prop} {l : List α} {u : List β}
    (each : ∀ a ∈ l, ∀ b ∈ u, r a b → s a b) (related : List.Forall₂ r l u) : List.Forall₂ s l u := by
  induction related with
  | nil => exact .nil
  | cons head _ ih =>
    exact .cons (each _ List.mem_cons_self _ List.mem_cons_self head)
      (ih fun a first b second => each a (List.mem_cons_of_mem _ first) b (List.mem_cons_of_mem _ second))

theorem related_trans {α β γ : Type} {first : α → β → Prop} {second : β → γ → Prop} {whole : α → γ → Prop}
    {l : List α} {u : List β} {v : List γ}
    (compose : ∀ a, ∀ b ∈ u, ∀ c, first a b → second b c → whole a c)
    (front : List.Forall₂ first l u) (back : List.Forall₂ second u v) : List.Forall₂ whole l v := by
  induction front generalizing v with
  | nil =>
    cases back
    exact .nil
  | cons head _ ih =>
    cases back with
    | cons next later =>
      exact .cons (compose _ _ List.mem_cons_self _ head next)
        (ih (fun a b member => compose a b (List.mem_cons_of_mem _ member)) later)

theorem related_mergeSort {α β : Type} {r : α → β → Prop} {le : α → α → Bool} {le' : β → β → Bool}
    (agree : ∀ a b c d, r a b → r c d → le a c = le' b d) {l : List α} {u : List β}
    (related : List.Forall₂ r l u) : List.Forall₂ r (l.mergeSort le) (u.mergeSort le') := by
  obtain ⟨even, paired⟩ := List.forall₂_iff_zip.mp related
  have each : ∀ x ∈ l.zip u, r x.1 x.2 := fun x member => paired member
  let below (x y : α × β) : Bool := le x.1 y.1
  have left : ((l.zip u).mergeSort below).map Prod.fst = l.mergeSort le := by
    rw [List.map_mergeSort (s := le) fun _ _ _ _ => rfl, List.map_fst_zip (Nat.le_of_eq even)]
  have right : ((l.zip u).mergeSort below).map Prod.snd = u.mergeSort le' := by
    rw [List.map_mergeSort (s := le') fun x among y other => agree _ _ _ _ (each x among) (each y other),
      List.map_snd_zip (Nat.le_of_eq even.symm)]
  rw [← left, ← right, List.forall₂_map_left_iff, List.forall₂_map_right_iff, List.forall₂_same]
  exact fun x member => each x (List.mem_mergeSort.mp member)

/-- What exists for each pair of two lists exists as a list beside them. -/
theorem exists_third {α β γ : Type} {r : α → β → Prop} {left : α → γ → Prop} {right : β → γ → Prop}
    {l : List α} {u : List β} (related : List.Forall₂ r l u)
    (each : ∀ a ∈ l, ∀ b, r a b → ∃ c, right b c ∧ left a c) :
    ∃ v, List.Forall₂ right u v ∧ List.Forall₂ left l v := by
  induction related with
  | nil => exact ⟨[], .nil, .nil⟩
  | cons first _ ih =>
    obtain ⟨c, rightHolds, leftHolds⟩ := each _ List.mem_cons_self _ first
    obtain ⟨v, rights, lefts⟩ := ih fun a later => each a (List.mem_cons_of_mem _ later)
    exact ⟨c :: v, .cons rightHolds rights, .cons leftHolds lefts⟩

theorem exists_of_mapM_ok {ε α β : Type} {l : List α} {f : α → Except ε β} {r : List β}
    (done : l.mapM f = .ok r) : ∀ x ∈ l, ∃ y ∈ r, f x = .ok y :=
  exists_related_right (mapM_ok_iff.mp done)

theorem exists_related {α β : Type} {r : α → β → Prop} {l : List α} (each : ∀ a ∈ l, ∃ b, r a b) :
    ∃ u, List.Forall₂ r l u := by
  induction l with
  | nil => exact ⟨[], .nil⟩
  | cons a rest ih =>
    rw [List.forall_mem_cons] at each
    obtain ⟨b, first⟩ := each.1
    obtain ⟨u, others⟩ := ih each.2
    exact ⟨b :: u, .cons first others⟩

theorem mapM_ok_of_exists {ε α β : Type} {l : List α} {f : α → Except ε β}
    (each : ∀ x ∈ l, ∃ y, f x = .ok y) : ∃ r, l.mapM f = .ok r := by
  obtain ⟨r, related⟩ := exists_related each
  exact ⟨r, mapM_ok_iff.mpr related⟩

namespace Logged

variable {ε α β γ : Type}

theorem bind_ok {x : Logged ε α} {a : α} (f : α → Logged ε β) (ok : x.outcome = .ok a) :
    x >>= f = ⟨x.records ++ (f a).records, (f a).outcome⟩ := by
  simp only [bind, ok]

theorem bind_error {x : Logged ε α} {e : ε} (f : α → Logged ε β) (error : x.outcome = .error e) :
    x >>= f = ⟨x.records, .error e⟩ := by
  simp only [bind, error]

theorem map_id (x : Logged ε α) : id <$> x = x := by
  cases x with
  | mk records outcome => cases outcome <;> simp [Functor.map]

theorem bind_bind (x : Logged ε α) (f : α → Logged ε β) (g : β → Logged ε γ) :
    x >>= f >>= g = x >>= fun a => f a >>= g := by
  cases ran : x.outcome with
  | error e => simp only [bind, ran]
  | ok a =>
    cases applied : (f a).outcome with
    | error e => simp only [bind, ran, applied]
    | ok b => simp only [bind, ran, applied, List.append_assoc]

instance : LawfulMonad (Logged ε) :=
  LawfulMonad.mk' (Logged ε) map_id (fun _ _ => rfl) bind_bind

/-- Every element leaves its records, in order, and gives its result. -/
theorem mapM_succeeds {l : List α} {f : α → Logged ε β} {r : α → List Record} {g : α → β}
    (each : ∀ x ∈ l, f x = ⟨r x, .ok (g x)⟩) : l.mapM f = ⟨l.flatMap r, .ok (l.map g)⟩ := by
  induction l with
  | nil => rfl
  | cons x rest ih =>
    have head := each x List.mem_cons_self
    have tail := ih fun y later => each y (List.mem_cons_of_mem x later)
    rw [List.mapM_cons, head, tail, bind_ok _ rfl, bind_ok _ rfl]
    simp [pure, List.flatMap_cons]

/-- The first element that fails ends the run: nothing comes of it or of what follows. -/
theorem mapM_stops {before : List α} (after : List α) {x : α} {e : ε} {f : α → Logged ε β}
    {r : α → List Record} {g : α → β} (each : ∀ y ∈ before, f y = ⟨r y, .ok (g y)⟩)
    (fails : f x = ⟨[], .error e⟩) :
    (before ++ x :: after).mapM f = ⟨before.flatMap r, .error e⟩ := by
  rw [List.mapM_append, mapM_succeeds each, List.mapM_cons, fails, bind_ok _ rfl,
    bind_error _ (e := e) rfl]
  simp [bind]

theorem exists_of_bind_ok {x : Logged ε α} {f : α → Logged ε β} {b : β}
    (done : (x >>= f).outcome = .ok b) : ∃ a, x.outcome = .ok a ∧ (f a).outcome = .ok b := by
  cases ran : x.outcome with
  | error e => rw [bind_error f ran] at done; contradiction
  | ok a => rw [bind_ok f ran] at done; exact ⟨a, rfl, done⟩

theorem exists_ok_of_bind {x : Logged ε α} {f : α → Logged ε β} (first : ∃ a, x.outcome = .ok a)
    (second : ∀ a, ∃ b, (f a).outcome = .ok b) : ∃ b, (x >>= f).outcome = .ok b := by
  obtain ⟨a, ran⟩ := first
  rw [bind_ok f ran]
  exact second a

theorem mapM_outcome_ok {f : α → Logged ε β} {l : List α} {r : List β}
    (done : (l.mapM f).outcome = .ok r) : List.Forall₂ (fun x y => (f x).outcome = .ok y) l r := by
  induction l generalizing r with
  | nil =>
    cases done
    exact .nil
  | cons x rest ih =>
    rw [List.mapM_cons] at done
    obtain ⟨v, head, later⟩ := exists_of_bind_ok done
    obtain ⟨vs, tail, whole⟩ := exists_of_bind_ok later
    cases whole
    exact .cons head (ih tail)

theorem mapM_ok_of_each {f : α → Logged ε β} {l : List α}
    (each : ∀ x ∈ l, ∃ y, (f x).outcome = .ok y) : ∃ r, (l.mapM f).outcome = .ok r := by
  induction l with
  | nil => exact ⟨[], rfl⟩
  | cons x rest ih =>
    obtain ⟨y, head⟩ := each x List.mem_cons_self
    obtain ⟨ys, tail⟩ := ih fun z later => each z (List.mem_cons_of_mem x later)
    refine ⟨y :: ys, ?_⟩
    rw [List.mapM_cons, bind_ok _ head, bind_ok _ tail]
    rfl

theorem mapM_outcome_error {f : α → Logged ε β} {before : List α} (after : List α) {x : α} {e : ε}
    (each : ∀ y ∈ before, ∃ b, (f y).outcome = .ok b) (fails : (f x).outcome = .error e) :
    ((before ++ x :: after).mapM f).outcome = .error e := by
  obtain ⟨made, done⟩ := mapM_ok_of_each each
  rw [List.mapM_append, bind_ok _ done, List.mapM_cons, bind_error _ fails]
  rfl

end Logged
end SyncFacade
