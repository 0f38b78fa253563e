import SyncFacade.Proofs.Value.ReadBack

/-! The texts of values as source. The text of a value is an expression for it exactly if everything in the value has
one; whatever else it may hold, no text gives that again. -/
namespace SyncFacade.Value

open Expression

variable {v : Value} {vs : List Value} {es : List (Value × Value)}

theorem isName_none : IsName "None" := ⟨by decide, by decide⟩

theorem isName_ellipsis : IsName "Ellipsis" := ⟨by decide, by decide⟩

theorem isName_bool (b : Bool) : IsName (if b then "True" else "False") := by
  cases b <;> exact ⟨by decide, by decide⟩

theorem readable_null : Readable .null :=
  readable_name isName_none rfl rfl (starts_chars rfl)

theorem readable_ellipsis : Readable .ellipsis :=
  readable_name isName_ellipsis rfl rfl (starts_chars rfl)

theorem readable_bool (b : Bool) : Readable (.bool b) := by
  cases b with
  | false => exact readable_name (isName_bool false) rfl rfl (starts_chars rfl)
  | true => exact readable_name (isName_bool true) rfl rfl (starts_chars rfl)

/-- A plain value is read from its text. -/
theorem readable_of_plain {v : Value} (plain : v.isPlain = true) (formed : v.Formed) : Readable v := by
  induction v with
  | null => exact readable_null
  | bool b => exact readable_bool b
  | int i => exact readable_of_steps (starts_int i) fun fuel rest stops => read_int i stops
  | float d =>
    cases d with
    | finite negative m e =>
      exact readable_of_steps (starts_float _) fun fuel rest stops => read_float (of_decide_eq_true formed) stops
    | nan | infinite => contradiction
  | str s => exact readable_str s
  | bytes bs => exact readable_bytes bs
  | list vs ih =>
    exact readable_list fun v member => ih v member (everyItem_iff.mp plain v member) (everyItem_iff.mp formed v member)
  | tuple vs ih =>
    exact readable_tuple fun v member => ih v member (everyItem_iff.mp plain v member) (everyItem_iff.mp formed v member)
  | dict es ih =>
    obtain ⟨form, entries⟩ := Bool.and_eq_true_iff.mp formed
    refine readable_dict form fun e member => ?_
    obtain ⟨keyPlain, valuePlain⟩ := everyEntry_iff.mp plain e member
    obtain ⟨keyFormed, valueFormed⟩ := everyEntry_iff.mp entries e member
    exact ⟨(ih e member).1 keyPlain keyFormed, (ih e member).2 valuePlain valueFormed⟩
  | set vs ih =>
    obtain ⟨keys, items⟩ := Bool.and_eq_true_iff.mp formed
    have readable (v) (member : v ∈ vs) : Readable v :=
      ih v member (everyItem_iff.mp plain v member) (everyItem_iff.mp items v member)
    by_cases empty : vs = []
    · subst empty
      exact readable_emptyCall isName_set rfl rfl (starts_chars rfl)
    · exact readable_set empty keys readable
  | frozenSet vs ih =>
    obtain ⟨keys, items⟩ := Bool.and_eq_true_iff.mp formed
    have readable (v) (member : v ∈ vs) : Readable v :=
      ih v member (everyItem_iff.mp plain v member) (everyItem_iff.mp items v member)
    by_cases empty : vs = []
    · subst empty
      exact readable_emptyCall isName_frozenset rfl rfl (starts_chars rfl)
    · exact readable_frozenSet empty (readable_set empty keys readable)
  | ellipsis => exact readable_ellipsis
  | member | object => contradiction

theorem isPlain_eq_false_of_items (unlike : everyItem hasExpression vs = false) : ∃ v ∈ vs, v.isPlain = false := by
  by_contra all
  refine (Bool.eq_false_iff.mp unlike) (everyItem_iff.mpr fun v member => ?_)
  by_contra other
  exact all ⟨v, member, Bool.eq_false_iff.mpr other⟩

theorem isPlain_eq_false_of_entries (unlike : everyEntry hasExpression es = false) :
    ∃ e ∈ es, e.1.isPlain = false ∨ e.2.isPlain = false := by
  by_contra all
  refine (Bool.eq_false_iff.mp unlike) (everyEntry_iff.mpr fun e member => ⟨?_, ?_⟩)
  · by_contra other
    exact all ⟨e, member, .inl (Bool.eq_false_iff.mpr other)⟩
  · by_contra other
    exact all ⟨e, member, .inr (Bool.eq_false_iff.mpr other)⟩

theorem isName_inf : IsName "inf" := ⟨by decide, by decide⟩

theorem unreadable_infinite (negative : Bool) : Unreadable (.float (.infinite negative)) where
  starts := starts_float _
  unread {fuel} room rest stops := by
    cases negative with
    | false =>
      obtain ⟨fuel, rfl⟩ := Nat.exists_eq_succ_of_ne_zero (Nat.ne_zero_of_lt room)
      exact read_name isName_inf stops
    | true =>
      obtain ⟨fuel, rfl⟩ : ∃ n, fuel = n + 2 := Nat.exists_eq_add_of_le' (Nat.lt_of_le_of_lt (by decide) room)
      have unread : read (fuel + 1) ("inf".toList ++ rest) = none := read_name isName_inf stops
      change read (fuel + 2) ('-' :: ("inf".toList ++ rest)) = none
      rw [read_minus, unread, Option.bind_none]

theorem known_of_formed (formed : v.Formed) (unread : v.isPlain = false → Unreadable v) :
    Readable v ∨ Unreadable v := by
  cases plain : v.isPlain with
  | true => exact .inl (readable_of_plain plain formed)
  | false => exact .inr (unread plain)

theorem known_items (formed : everyItem isFormed vs = true) (unlike : everyItem hasExpression vs = false)
    (unread : ∀ v ∈ vs, v.isPlain = false → Unreadable v) :
    (∀ v ∈ vs, Readable v ∨ Unreadable v) ∧ ∃ v ∈ vs, Unreadable v := by
  obtain ⟨w, among, other⟩ := isPlain_eq_false_of_items unlike
  exact ⟨fun v member => known_of_formed (everyItem_iff.mp formed v member) (unread v member),
    w, among, unread w among other⟩

/-- The text of a value that is not plain is not read, if all that it holds could be made again. -/
theorem unreadable_of_not_plain {v : Value} (repeatable : v.every isRepeatable = true) (formed : v.Formed)
    (unlike : v.isPlain = false) : Unreadable v := by
  induction v with
  | list vs ih =>
    obtain ⟨known, unread⟩ := known_items formed unlike fun v member =>
      ih v member (everyItem_iff.mp repeatable v member) (everyItem_iff.mp formed v member)
    exact unreadable_list known unread
  | tuple vs ih =>
    obtain ⟨known, unread⟩ := known_items formed unlike fun v member =>
      ih v member (everyItem_iff.mp repeatable v member) (everyItem_iff.mp formed v member)
    exact unreadable_tuple known unread
  | dict es ih =>
    have entries := (Bool.and_eq_true_iff.mp formed).2
    have key (e) (member : e ∈ es) :=
      (ih e member).1 (everyEntry_iff.mp repeatable e member).1 (everyEntry_iff.mp entries e member).1
    have value (e) (member : e ∈ es) :=
      (ih e member).2 (everyEntry_iff.mp repeatable e member).2 (everyEntry_iff.mp entries e member).2
    obtain ⟨d, among, other⟩ := isPlain_eq_false_of_entries unlike
    refine unreadable_dict (fun e member => ?_) ⟨d, among, other.imp (key d among) (value d among)⟩
    exact ⟨known_of_formed (everyEntry_iff.mp entries e member).1 (key e member),
      known_of_formed (everyEntry_iff.mp entries e member).2 (value e member)⟩
  | set vs ih =>
    have items := (Bool.and_eq_true_iff.mp formed).2
    obtain ⟨known, unread⟩ := known_items items unlike fun v member =>
      ih v member (everyItem_iff.mp repeatable v member) (everyItem_iff.mp items v member)
    exact unreadable_set known unread
  | frozenSet vs ih =>
    have items := (Bool.and_eq_true_iff.mp formed).2
    obtain ⟨known, unread⟩ := known_items items unlike fun v member =>
      ih v member (everyItem_iff.mp repeatable v member) (everyItem_iff.mp items v member)
    have nonempty : vs ≠ [] := unread.elim fun v among => List.ne_nil_of_mem among.1
    exact unreadable_frozenSet nonempty (unreadable_set known unread)
  | float d =>
    cases d with
    | infinite negative => exact unreadable_infinite negative
    | nan | finite => contradiction
  | null | bool | int | str | bytes | ellipsis | member | object => contradiction

/-- A text is source of a value if the expression that it is has an equal value. -/
def IsSource (v : Value) (s : String) : Prop := ∃ w, evaluate? s = some w ∧ v.equals w = true

theorem Readable.evaluate (readable : Readable v) : evaluate? v.text = some v := by
  have read := readable.reads (Nat.lt_succ_self _) [] nofun
  rw [List.append_nil] at read
  change (Expression.read (v.chars.length + 1) v.chars).bind _ = _
  rw [read]
  rfl

theorem Unreadable.evaluate (unreadable : Unreadable v) : evaluate? v.text = none := by
  have unread := unreadable.unread (Nat.lt_succ_self _) [] nofun
  rw [List.append_nil] at unread
  change (Expression.read (v.chars.length + 1) v.chars).bind _ = _
  rw [unread]
  rfl

/-- The text of a value is its source exactly if the value is plain. -/
theorem isSource_text_iff (formed : v.Formed) : IsSource v v.text ↔ v.isPlain = true := by
  constructor
  · rintro ⟨w, read, equal⟩
    by_contra unlike
    have unreadable := unreadable_of_not_plain (repeatable_of_equals equal) formed (Bool.eq_false_iff.mpr unlike)
    rw [unreadable.evaluate] at read
    contradiction
  · intro plain
    exact ⟨v, (readable_of_plain plain formed).evaluate, equals_self plain⟩

end SyncFacade.Value
