import SyncFacade.Proofs.Value.Reading

/-! The texts of values as characters: how those of lists, tuples, dictionaries and sets are made up of those of their
items, and what they begin with. -/
namespace SyncFacade

open Decimal (Double Canonical)
open Expression

namespace Value

def chars (v : Value) : List Char := v.text.toList

def entryChars (e : Value × Value) : List Char := e.1.chars ++ ':' :: ' ' :: e.2.chars

/-- The texts of some items with commas between them. -/
def rowChars (vs : List Value) : List Char := [',', ' '].intercalate (vs.map chars)

theorem texts_eq_map (vs : List Value) : texts vs = vs.map text := by
  induction vs with
  | nil => rfl
  | cons v vs ih => exact congrArg (v.text :: ·) ih

theorem entryTexts_eq_map (es : List (Value × Value)) :
    entryTexts es = es.map fun e => e.1.text ++ ": " ++ e.2.text := by
  induction es with
  | nil => rfl
  | cons e es ih => exact congrArg ((e.1.text ++ ": " ++ e.2.text) :: ·) ih

theorem toList_row (vs : List Value) : (", ".intercalate (texts vs)).toList = rowChars vs := by
  rw [String.toList_intercalate, texts_eq_map, List.map_map]
  rfl

theorem chars_list (vs : List Value) : (list vs).chars = '[' :: (rowChars vs ++ [']']) := by
  change ("[" ++ ", ".intercalate (texts vs) ++ "]").toList = _
  rw [String.toList_append, String.toList_append, toList_row]
  rfl

theorem chars_tuple {vs : List Value} (several : vs.length ≠ 1) : (tuple vs).chars = '(' :: (rowChars vs ++ [')']) := by
  have form : text (.tuple vs) = "(" ++ ", ".intercalate (texts vs) ++ ")" := by
    match vs, several with
    | [], _ => rfl
    | _ :: _ :: _, _ => rfl
  rw [chars, form, String.toList_append, String.toList_append, toList_row]
  rfl

theorem chars_tuple_single (v : Value) : (tuple [v]).chars = '(' :: (v.chars ++ [',', ')']) := by
  change ("(" ++ v.text ++ ",)").toList = _
  rw [String.toList_append, String.toList_append]
  rfl

theorem chars_dict (es : List (Value × Value)) :
    (dict es).chars = '\x7b' :: ([',', ' '].intercalate (es.map entryChars) ++ ['\x7d']) := by
  have entries : (", ".intercalate (entryTexts es)).toList = [',', ' '].intercalate (es.map entryChars) := by
    rw [String.toList_intercalate, entryTexts_eq_map, List.map_map]
    refine congrArg _ (List.map_congr_left fun e _ => ?_)
    simp only [Function.comp_apply, String.toList_append, entryChars, chars, List.append_assoc]
    rfl
  change ("\x7b" ++ ", ".intercalate (entryTexts es) ++ "\x7d").toList = _
  rw [String.toList_append, String.toList_append, entries]
  rfl

theorem chars_set {vs : List Value} (nonempty : vs ≠ []) : (set vs).chars = '\x7b' :: (rowChars vs ++ ['\x7d']) := by
  obtain ⟨first, later, rfl⟩ := List.exists_cons_of_ne_nil nonempty
  change ("\x7b" ++ ", ".intercalate (texts (first :: later)) ++ "\x7d").toList = _
  rw [String.toList_append, String.toList_append, toList_row]
  rfl

theorem chars_frozenSet {vs : List Value} (nonempty : vs ≠ []) :
    (frozenSet vs).chars = "frozenset".toList ++ '(' :: ((set vs).chars ++ [')']) := by
  rw [chars_set nonempty]
  obtain ⟨first, later, rfl⟩ := List.exists_cons_of_ne_nil nonempty
  change ("frozenset(\x7b" ++ ", ".intercalate (texts (first :: later)) ++ "\x7d)").toList = _
  rw [String.toList_append, String.toList_append, toList_row]
  simp

theorem chars_str (s : String) : (str s).chars = Text.quoted s.toList :=
  String.toList_ofList

theorem starts_int (i : Int) : Starts (int i).chars := by
  have digits (n : Nat) : Starts (Nat.toDigits 10 n) := by
    obtain ⟨c, cs, spelled⟩ := List.exists_cons_of_ne_nil (Nat.toDigits_ne_nil (n := n) (b := 10))
    rw [spelled]
    exact starts_digit (isDigit_toDigits c (spelled ▸ List.mem_cons_self)) cs
  change Starts (toString i).toList
  rw [Int.toString_eq_repr, Int.repr_eq_if]
  split
  · rw [Nat.toList_repr]
    exact digits _
  · rw [String.toList_append]
    exact ⟨'-', _, rfl, by decide⟩

theorem starts_float (d : Double) : Starts (float d).chars := by
  change Starts (floatText d).toList
  match d with
  | .nan => exact ⟨'n', ['a', 'n'], by decide, by decide⟩
  | .infinite false => exact ⟨'i', ['n', 'f'], by decide, by decide⟩
  | .infinite true => exact ⟨'-', ['i', 'n', 'f'], by decide, by decide⟩
  | .finite false m e =>
    obtain ⟨c, cs, spelled, digit⟩ := exists_digit_floatText m e
    rw [spelled]
    exact starts_digit digit cs
  | .finite true m e =>
    rw [floatText_negative]
    exact ⟨'-', _, rfl, by decide⟩

/-- Whatever can be made again has a text that can stand in a row. -/
theorem starts_chars {v : Value} (repeatable : v.isRepeatable = true) : Starts v.chars := by
  match v with
  | .null => exact ⟨'N', ['o', 'n', 'e'], by decide, by decide⟩
  | .bool true => exact ⟨'T', ['r', 'u', 'e'], by decide, by decide⟩
  | .bool false => exact ⟨'F', ['a', 'l', 's', 'e'], by decide, by decide⟩
  | .int i => exact starts_int i
  | .float d => exact starts_float d
  | .str s =>
    rw [chars_str]
    exact starts_quote (Text.isQuote_quoteFor _ _) _
  | .bytes bs =>
    exact ⟨'b', _, String.toList_ofList, by decide⟩
  | .list vs =>
    rw [chars_list]
    exact ⟨'[', _, rfl, by decide⟩
  | .tuple vs =>
    by_cases single : vs.length = 1
    · obtain ⟨v, rfl⟩ := List.length_eq_one_iff.mp single
      rw [chars_tuple_single]
      exact ⟨'(', _, rfl, by decide⟩
    · rw [chars_tuple single]
      exact ⟨'(', _, rfl, by decide⟩
  | .dict es =>
    rw [chars_dict]
    exact ⟨'\x7b', _, rfl, by decide⟩
  | .set [] => exact ⟨'s', ['e', 't', '(', ')'], by decide, by decide⟩
  | .set (v :: vs) =>
    rw [chars_set (List.cons_ne_nil v vs)]
    exact ⟨'\x7b', _, rfl, by decide⟩
  | .frozenSet [] => exact ⟨'f', ['r', 'o', 'z', 'e', 'n', 's', 'e', 't', '(', ')'], by decide, by decide⟩
  | .frozenSet (v :: vs) =>
    rw [chars_frozenSet (List.cons_ne_nil v vs)]
    exact ⟨'f', _, rfl, by decide⟩
  | .ellipsis => exact ⟨'E', ['l', 'l', 'i', 'p', 's', 'i', 's'], by decide, by decide⟩

theorem length_le_row {ts : List (List Char)} {t : List Char} (member : t ∈ ts) :
    t.length ≤ ([',', ' '].intercalate ts).length := by
  induction ts with
  | nil => contradiction
  | cons first later ih =>
    cases later with
    | nil =>
      rw [List.mem_singleton.mp member, List.intercalate_singleton]
    | cons second later =>
      rw [List.intercalate_cons_cons, List.length_append, List.length_append]
      rcases List.mem_cons.mp member with rfl | member
      · omega
      · have := ih member
        omega

theorem count_le_row {ts : List (List Char)} (nonempty : ∀ t ∈ ts, Starts t) :
    ts.length ≤ ([',', ' '].intercalate ts).length := by
  induction ts with
  | nil => exact Nat.zero_le _
  | cons first later ih =>
    obtain ⟨⟨c, cs, rfl, -⟩, rest⟩ := List.forall_mem_cons.mp nonempty
    cases later with
    | nil => simp
    | cons second later =>
      have := ih rest
      simp only [List.intercalate_cons_cons, List.length_append, List.length_cons, List.length_nil] at this ⊢
      omega

end Value
end SyncFacade
