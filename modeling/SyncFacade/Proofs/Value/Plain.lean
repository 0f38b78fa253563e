import SyncFacade.Proofs.Decimal.Rounding
import SyncFacade.Value

/-! Conditions on all that a value holds, at any depth. The form in which values are made is one of them, and another
that there is nothing in a value that only its own making could give again. -/
namespace SyncFacade.Value

open Decimal (Double Canonical)

/-- Values are built up from those they hold. A member of an enumeration is taken as it is. -/
@[induction_eliminator]
theorem induct {motive : Value → Prop} (null : motive .null) (bool : ∀ b, motive (.bool b)) (int : ∀ i, motive (.int i))
    (float : ∀ d, motive (.float d)) (str : ∀ s, motive (.str s)) (bytes : ∀ bs, motive (.bytes bs))
    (list : ∀ vs, (∀ v ∈ vs, motive v) → motive (.list vs)) (tuple : ∀ vs, (∀ v ∈ vs, motive v) → motive (.tuple vs))
    (dict : ∀ es, (∀ e ∈ es, motive e.1 ∧ motive e.2) → motive (.dict es))
    (set : ∀ vs, (∀ v ∈ vs, motive v) → motive (.set vs))
    (frozenSet : ∀ vs, (∀ v ∈ vs, motive v) → motive (.frozenSet vs)) (ellipsis : motive .ellipsis)
    (member : ∀ e n v, motive (.member e n v)) (object : ∀ t, motive (.object t)) : ∀ v, motive v :=
  @Value.rec motive (fun vs => ∀ v ∈ vs, motive v) (fun es => ∀ e ∈ es, motive e.1 ∧ motive e.2)
    (fun e => motive e.1 ∧ motive e.2) null bool int float str bytes list tuple dict set frozenSet ellipsis
    (fun e n v _ => member e n v) object
    nofun (fun _ _ first later => List.forall_mem_cons.mpr ⟨first, later⟩)
    nofun (fun _ _ first later => List.forall_mem_cons.mpr ⟨first, later⟩) (fun _ _ key value => ⟨key, value⟩)

mutual

/-- Whether a value and all that it holds pass a test. -/
def every (test : Value → Bool) : Value → Bool
  | .list vs => test (.list vs) && everyItem test vs
  | .tuple vs => test (.tuple vs) && everyItem test vs
  | .dict es => test (.dict es) && everyEntry test es
  | .set vs => test (.set vs) && everyItem test vs
  | .frozenSet vs => test (.frozenSet vs) && everyItem test vs
  | v => test v

def everyItem (test : Value → Bool) : List Value → Bool
  | [] => true
  | v :: vs => every test v && everyItem test vs

def everyEntry (test : Value → Bool) : List (Value × Value) → Bool
  | [] => true
  | (k, v) :: es => every test k && every test v && everyEntry test es

end

instance (m : Nat) (e : Int) : Decidable (Canonical m e) :=
  decidable_of_iff (m < Decimal.significandBound ∧ Decimal.minExponent ≤ e ∧ e ≤ Decimal.maxExponent ∧
      (e = Decimal.minExponent ∨ Decimal.leastSignificand ≤ m))
    ⟨fun ⟨below, finest, coarsest, normal⟩ => ⟨below, finest, coarsest, normal⟩,
      fun canonical => ⟨canonical.below, canonical.finest, canonical.coarsest, canonical.normal⟩⟩

/-- Whether some values can be keys beside each other: they have hashes and differ. -/
def areKeys (vs : List Value) : Bool := vs.all hashable && decide (vs.Pairwise fun v w => v.equals w = false)

/-- The form of a value: a double has its one form, and a dictionary has keys, as a set has items, that can be keys
beside each other. -/
def isFormed : Value → Bool
  | .float (.finite _ m e) => decide (Canonical m e)
  | .dict es => areKeys (es.map Prod.fst)
  | .set vs => areKeys vs
  | .frozenSet vs => areKeys vs
  | _ => true

/-- Values as they are made. -/
def Formed (v : Value) : Prop := v.every isFormed = true

/-- Whether an equal value can be made apart from a value: not from a member of an enumeration, from an object that is
known by its text alone, or from what is not a number. -/
def isRepeatable : Value → Bool
  | .float .nan => false
  | .member _ _ _ => false
  | .object _ => false
  | _ => true

/-- Whether a value has an expression of its own. The infinities have none either. -/
def hasExpression : Value → Bool
  | .float (.infinite _) => false
  | v => v.isRepeatable

/-- Values that hold nothing without an expression of its own. -/
def isPlain (v : Value) : Bool := v.every hasExpression

variable {test : Value → Bool}

theorem everyItem_iff {vs : List Value} : everyItem test vs = true ↔ ∀ v ∈ vs, every test v = true := by
  induction vs with
  | nil => simp [everyItem]
  | cons v vs ih => simp [everyItem, ih]

theorem everyEntry_iff {es : List (Value × Value)} :
    everyEntry test es = true ↔ ∀ e ∈ es, every test e.1 = true ∧ every test e.2 = true := by
  induction es with
  | nil => simp [everyEntry]
  | cons e es ih => simp [everyEntry, ih]

theorem allEqual_cons {v : Value} {vs ws : List Value} (equal : allEqual (v :: vs) ws = true) :
    ∃ w later, ws = w :: later ∧ v.equals w = true ∧ allEqual vs later = true := by
  cases ws with
  | nil => simp [allEqual] at equal
  | cons w later => exact ⟨w, later, rfl, by simpa [allEqual] using equal⟩

theorem exists_equal_of_allEqual {vs ws : List Value} (equal : allEqual vs ws = true) :
    ∀ v ∈ vs, ∃ w, v.equals w = true := by
  induction vs generalizing ws with
  | nil => exact nofun
  | cons v vs ih =>
    obtain ⟨w, later, -, first, rest⟩ := allEqual_cons equal
    exact List.forall_mem_cons.mpr ⟨⟨w, first⟩, ih rest⟩

theorem allAmong_iff {vs ws : List Value} : allAmong vs ws = true ↔ ∀ v ∈ vs, ∃ w ∈ ws, v.equals w = true := by
  induction vs with
  | nil => simp [allAmong]
  | cons v vs ih => simp [allAmong, ih]

theorem allIn_iff {es ds : List (Value × Value)} : allIn es ds = true ↔
    ∀ e ∈ es, ∃ d ∈ ds, e.1.equals d.1 = true ∧ e.2.equals d.2 = true := by
  induction es with
  | nil => simp [allIn]
  | cons e es ih => rw [allIn, Bool.and_eq_true, ih]; simp

theorem exists_equal_of_allAmong {vs ws : List Value} (equal : (decide (vs.length = ws.length) && allAmong vs ws) = true) :
    ∀ v ∈ vs, ∃ w, v.equals w = true := by
  intro v member
  obtain ⟨w, -, equal⟩ := allAmong_iff.mp (Bool.and_eq_true_iff.mp equal).2 v member
  exact ⟨w, equal⟩

theorem everyItem_of_equal {vs : List Value} (ih : ∀ v ∈ vs, ∀ {w : Value}, v.equals w = true → every test v = true)
    (equal : ∀ v ∈ vs, ∃ w, v.equals w = true) : everyItem test vs = true :=
  everyItem_iff.mpr fun v member => (equal v member).elim fun _ equal => ih v member equal

/-- What equals anything holds nothing that can be made but once. -/
theorem repeatable_of_equals {v w : Value} (equal : v.equals w = true) : v.every isRepeatable = true := by
  induction v generalizing w with
  | list vs ih =>
    cases w <;> simp [equals] at equal
    exact everyItem_of_equal ih (exists_equal_of_allEqual equal)
  | tuple vs ih =>
    cases w <;> simp [equals] at equal
    exact everyItem_of_equal ih (exists_equal_of_allEqual equal)
  | dict es ih =>
    cases w <;> simp [equals] at equal
    refine everyEntry_iff.mpr fun e member => ?_
    obtain ⟨d, -, key, value⟩ := allIn_iff.mp equal.2 e member
    exact ⟨(ih e member).1 key, (ih e member).2 value⟩
  | set vs ih | frozenSet vs ih =>
    cases w <;> unfold equals at equal <;> first | contradiction | exact everyItem_of_equal ih (exists_equal_of_allAmong equal)
  | float d => cases d <;> cases w <;> simp [equals, Double.equals, Double.equalsInt, every, isRepeatable] at equal ⊢
  | member e n v => cases w <;> simp [equals] at equal
  | object t => cases w <;> simp [equals] at equal
  | null | bool | int | str | bytes | ellipsis => rfl

theorem allEqual_self {vs : List Value} (equal : ∀ v ∈ vs, v.equals v = true) : allEqual vs vs = true := by
  induction vs with
  | nil => rfl
  | cons v vs ih =>
    obtain ⟨first, later⟩ := List.forall_mem_cons.mp equal
    rw [allEqual, first, ih later]
    rfl

theorem allAmong_self {vs : List Value} (equal : ∀ v ∈ vs, v.equals v = true) :
    (decide (vs.length = vs.length) && allAmong vs vs) = true := by
  simpa using allAmong_iff.mpr fun v member => ⟨v, member, equal v member⟩

/-- A value that holds nothing without an expression equals itself. -/
theorem equals_self {v : Value} (plain : v.isPlain = true) : v.equals v = true := by
  induction v with
  | list vs ih =>
    exact allEqual_self fun v member => ih v member (everyItem_iff.mp plain v member)
  | tuple vs ih =>
    exact allEqual_self fun v member => ih v member (everyItem_iff.mp plain v member)
  | dict es ih =>
    have entries := everyEntry_iff.mp plain
    have equal : allIn es es = true := allIn_iff.mpr fun e member =>
      ⟨e, member, (ih e member).1 (entries e member).1, (ih e member).2 (entries e member).2⟩
    simp [equals, equal]
  | set vs ih | frozenSet vs ih =>
    exact allAmong_self fun v member => ih v member (everyItem_iff.mp plain v member)
  | float d =>
    cases d with
    | nan | infinite => contradiction
    | finite => simp [equals, Double.equals]
  | member | object => contradiction
  | null | bool | int | str | bytes | ellipsis => simp [equals, equalsInt]

end SyncFacade.Value
