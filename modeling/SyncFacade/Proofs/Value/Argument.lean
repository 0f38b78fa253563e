import SyncFacade.Proofs.Text.Unquoted
import SyncFacade.Proofs.Value.Source
import SyncFacade.TypeHint.Reference
import Mathlib.Data.List.DropRight

/-! The names that values are recorded under as arguments of annotations. There a tuple is written as a list, and the
texts in a list have no quotes: the name of a value is its source only where neither makes a difference. -/
namespace SyncFacade

def Value.isText : Value → Bool
  | .str _ => true
  | _ => false

namespace Expression

section Texts

variable {fuel : Nat} {cs rest : List Char} {v w : Value} {vs : List Value} {s : String}

theorem eq_some_of_map_pair {o : Option Value} (found : o.map (·, cs) = some (v, rest)) : o = some v := by
  obtain ⟨w, made, same⟩ := Option.map_eq_some_iff.mp found
  rw [made, (Prod.mk.inj same).1]

theorem isText_negate? (negated : negate? v = some w) : w.isText = false := by
  cases v <;> simp only [negate?, Option.some.injEq, reduceCtorEq] at negated <;> subst negated <;> rfl

theorem exists_of_dictionary? {es : List (Value × Value)} (made : dictionary? es = some v) : ∃ ds, v = .dict ds := by
  unfold dictionary? at made
  split at made
  · exact ⟨_, (Option.some.inj made).symm⟩
  · contradiction

theorem isText_readBraces {read : List Char → Option (Value × List Char)}
    (found : readBraces read fuel cs = some (v, rest)) : v.isText = false := by
  unfold readBraces at found
  split at found
  · obtain ⟨ds, rfl⟩ := exists_of_dictionary? (eq_some_of_map_pair found)
    rfl
  · obtain ⟨⟨⟨vs, comma⟩, behind⟩, row, found⟩ := Option.bind_eq_some_iff.mp found
    obtain ⟨keys, kept, rfl⟩ := Option.map_eq_some_iff.mp (eq_some_of_map_pair found)
    obtain ⟨ds, rfl⟩ := exists_of_dictionary? kept
    rfl

theorem isText_readNumber (found : readNumber cs = some (v, rest)) : v.isText = false := by
  unfold readNumber at found
  extract_lets whole at found
  grind [Value.isText]

theorem isText_readBytes (found : readBytes cs = some (v, rest)) : v.isText = false := by
  obtain ⟨⟨codes, behind⟩, quoted, same⟩ := Option.map_eq_some_iff.mp found
  obtain ⟨rfl, rfl⟩ := Prod.mk.inj same
  rfl

theorem isText_constant? {name : String} (known : constant? name = some v) : v.isText = false := by
  unfold constant? at known
  grind [Value.isText]

theorem isText_call? {name : String} (known : call? name vs = some v) : v.isText = false := by
  unfold call? at known
  grind [Value.isText]

theorem isText_readNamed {read : List Char → Option (Value × List Char)}
    (found : readNamed read fuel cs = some (v, rest)) : v.isText = false := by
  unfold readNamed at found
  extract_lets name behind at found
  split at found
  · obtain ⟨⟨⟨vs, comma⟩, further⟩, row, found⟩ := Option.bind_eq_some_iff.mp found
    exact isText_call? (eq_some_of_map_pair found)
  · exact isText_constant? (eq_some_of_map_pair found)

theorem readRow_first {α : Type} {readItem : List Char → Option (α × List Char)} {close : Char} {a : α} {as : List α}
    {comma : Bool} (found : readRow readItem close fuel cs = some ((a :: as, comma), rest)) :
    ∃ behind, readItem (skip cs) = some (a, behind) := by
  cases fuel with
  | zero => contradiction
  | succ fuel =>
    rw [readRow] at found
    split at found
    · simp at found
    · obtain ⟨⟨b, behind⟩, item, found⟩ := Option.bind_eq_some_iff.mp found
      have same : b = a := by
        dsimp only at found
        split at found
        · contradiction
        · split at found
          · obtain ⟨⟨⟨bs, last⟩, further⟩, row, same⟩ := Option.map_eq_some_iff.mp found
            exact (List.cons.inj (Prod.mk.inj (Prod.mk.inj same).1).1).1
          · split at found
            · exact (List.cons.inj (Prod.mk.inj (Prod.mk.inj (Option.some.inj found)).1).1).1
            · contradiction
      exact ⟨behind, by rw [item, same]⟩

theorem eq_of_parenthesized {comma : Bool} (text : parenthesized vs comma = .str s) : vs = [.str s] := by
  unfold parenthesized at text
  split at text <;> simp_all

/-- The spaces and parentheses that may stand before a literal, and the quotes. -/
def IsOpening (c : Char) : Prop := c ∈ [' ', '(', '\'', '"']

instance (c : Char) : Decidable (IsOpening c) := inferInstanceAs (Decidable (c ∈ _))

theorem exists_skipped (cs : List Char) : ∃ spaces, cs = spaces ++ skip cs ∧ ∀ c ∈ spaces, IsOpening c := by
  refine ⟨_, List.takeWhile_append_dropWhile.symm, fun c member => ?_⟩
  have space : c = ' ' := by simpa using List.all_eq_true.mp List.all_takeWhile c member
  rw [space]
  decide

theorem readText_content {c : Char} (quotes : Text.isQuote c = true) (found : readText (c :: cs) = some (.str s, rest)) :
    ∃ n, Text.readContent true c n cs = some (s.toList.map Char.toNat, rest) := by
  obtain ⟨⟨codes, behind⟩, read, found⟩ := Option.bind_eq_some_iff.mp found
  rw [Text.readQuoted, if_pos quotes] at read
  dsimp only at found
  split at found
  · rename_i valid
    obtain ⟨text, rfl⟩ := Prod.mk.inj (Option.some.inj found)
    have same : s.toList.map Char.toNat = codes := by
      rw [← Value.str.inj text, String.toList_ofList, List.map_map]
      refine (List.map_congr_left fun n member => ?_).trans (List.map_id codes)
      exact Text.toNat_ofNat_of_valid (of_decide_eq_true (List.all_eq_true.mp valid n member))
    exact ⟨_, same ▸ read⟩
  · contradiction

/-- A text is read from parentheses with nothing else in them, or from a literal. -/
theorem read_str_cases (found : read (fuel + 1) cs = some (.str s, rest)) : ∃ c later, skip cs = c :: later ∧
    ((c = '(' ∧ ∃ comma, readRow (read fuel) ')' fuel later = some (([.str s], comma), rest)) ∨
      Text.isQuote c = true ∧ readText (c :: later) = some (.str s, rest)) := by
  have none_of {v : Value} (other : v.isText = false) : v ≠ .str s := by
    rintro rfl
    contradiction
  rw [read] at found
  split at found
  · contradiction
  · rename_i c later bare
    refine ⟨c, later, bare, ?_⟩
    split at found
    · obtain ⟨⟨v, behind⟩, -, found⟩ := Option.bind_eq_some_iff.mp found
      exact absurd rfl (none_of (isText_negate? (eq_some_of_map_pair found)))
    split at found
    · obtain ⟨⟨⟨vs, comma⟩, behind⟩, -, same⟩ := Option.map_eq_some_iff.mp found
      exact absurd (Prod.mk.inj same).1 (none_of rfl)
    split at found
    · rename_i parenthesis
      obtain ⟨⟨⟨vs, comma⟩, behind⟩, row, same⟩ := Option.map_eq_some_iff.mp found
      obtain ⟨single, rfl⟩ := Prod.mk.inj same
      obtain rfl := eq_of_parenthesized single
      exact .inl ⟨parenthesis, comma, row⟩
    split at found
    · exact absurd rfl (none_of (isText_readBraces found))
    split at found
    · exact absurd (Prod.mk.inj (Option.some.inj found)).1 (none_of rfl)
    split at found
    · exact absurd rfl (none_of (isText_readNumber found))
    split at found
    · rename_i quotes
      exact .inr ⟨quotes, found⟩
    split at found
    · exact absurd rfl (none_of (isText_readBytes found))
    · exact absurd rfl (none_of (isText_readNamed found))

/-- A text that is read stands between its quotes, with nothing but openings before it. -/
theorem exists_literal (found : read fuel cs = some (.str s, rest)) : ∃ before quote body n behind,
    cs = before ++ quote :: body ∧ (∀ c ∈ before ++ [quote], IsOpening c) ∧
      Text.readContent true quote n body = some (s.toList.map Char.toNat, behind) := by
  induction fuel generalizing cs rest with
  | zero => contradiction
  | succ fuel ih =>
    obtain ⟨spaces, spelled, blank⟩ := exists_skipped cs
    obtain ⟨c, later, bare, ⟨rfl, comma, row⟩ | ⟨quotes, literal⟩⟩ := read_str_cases found
    · obtain ⟨further, item⟩ := readRow_first row
      obtain ⟨more, deeper, alsoBlank⟩ := exists_skipped later
      obtain ⟨before, quote, body, n, rest, inside, openings, content⟩ := ih item
      refine ⟨spaces ++ '(' :: more ++ before, quote, body, n, rest, ?_, ?_, content⟩
      · rw [spelled, bare, deeper, inside]
        simp
      · have opening : IsOpening '(' := by decide
        simp only [List.mem_append, List.mem_cons] at openings ⊢
        grind
    · obtain ⟨n, content⟩ := readText_content quotes literal
      refine ⟨spaces, c, later, n, rest, by rw [← bare]; exact spelled, ?_, content⟩
      have opening : IsOpening c := by
        simp only [Text.isQuote, Bool.or_eq_true, decide_eq_true_eq] at quotes
        rcases quotes with rfl | rfl <;> decide
      simp only [List.mem_append, List.mem_singleton]
      grind

theorem read_skip (fuel : Nat) (cs : List Char) : read fuel (skip cs) = read fuel cs := by
  have twice : skip (skip cs) = skip cs := List.dropWhile_idempotent _ _
  cases fuel with
  | zero => rfl
  | succ fuel => simp only [read, twice]

/-- A text without its quotes is not read as itself, where it stands in a list. -/
theorem read_ne_str {mark : Char} {behind : List Char} (isMark : Text.IsMark mark) :
    read fuel (s.toList ++ mark :: behind) ≠ some (.str s, rest) := by
  intro found
  obtain ⟨before, quote, body, n, further, spelled, openings, content⟩ := exists_literal found
  have free : mark ∉ before ++ [quote] := by
    intro among
    have opening := openings mark among
    simp only [Text.IsMark, IsOpening, List.mem_cons, List.not_mem_nil, or_false] at isMark opening
    grind
  obtain ⟨inner, whole, later⟩ : ∃ inner, s.toList = before ++ [quote] ++ inner ∧ body = inner ++ mark :: behind := by
    rw [List.append_cons before, eq_comm, List.append_eq_append_iff] at spelled
    rcases spelled with found | ⟨beyond, front, later⟩
    · exact found
    · cases beyond with
      | nil => exact ⟨[], by simp [front], by simp [later]⟩
      | cons c beyond =>
        rw [List.cons_append, List.cons.injEq] at later
        rw [front, ← later.1] at free
        simp at free
  rw [later] at content
  exact Text.readContent_ne_self isMark free content (by rw [whole])

end Texts

end Expression

namespace Value

open Expression

variable {v : Value} {vs ws : List Value} {fuel : Nat}

/-- The items of a list as their names stand in it. -/
def nameRow (vs : List Value) : List Char := [',', ' '].intercalate (vs.map fun v => v.wholeName.toList)

theorem nameRow_cons (v : Value) (later : List Value) (rest : List Char) : ∃ mark behind,
    nameRow (v :: later) ++ ']' :: rest = v.wholeName.toList ++ mark :: behind ∧ Text.IsMark mark := by
  cases later with
  | nil => exact ⟨']', rest, by simp [nameRow], by simp [Text.IsMark]⟩
  | cons w later => exact ⟨',', ' ' :: (nameRow (w :: later) ++ ']' :: rest), by simp [nameRow], by simp [Text.IsMark]⟩

theorem exists_str_of_isText (text : v.isText = true) : ∃ s, v = .str s := by
  cases v with
  | str s => exact ⟨s, rfl⟩
  | _ => contradiction

theorem eq_str_of_equals {s : String} {w : Value} (equal : (str s).equals w = true) : w = .str s := by
  cases w with
  | str t => exact congrArg Value.str (of_decide_eq_true equal).symm
  | _ => contradiction

theorem wholeName_eq_text (other : v.isText = false) : v.wholeName = v.text := by
  cases v with
  | str => contradiction
  | _ => rfl

theorem known_of_equal {w : Value} (formed : v.Formed) (equal : v.equals w = true) : Readable v ∨ Unreadable v :=
  known_of_formed formed (unreadable_of_not_plain (repeatable_of_equals equal) formed)

section Row

variable {w : Value} {later others : List Value} {n : Nat} {comma : Bool} {rest behind : List Char}

/-- The first item that is read from the names in a list equals no text that the list begins with. -/
theorem not_isText_of_readRow (equal : v.equals w = true)
    (found : readRow (read fuel) ']' n (nameRow (v :: later) ++ ']' :: rest) = some ((w :: others, comma), behind)) :
    v.isText = false := by
  obtain ⟨mark, further, spelled, isMark⟩ := nameRow_cons v later rest
  by_contra text
  obtain ⟨s, rfl⟩ := exists_str_of_isText (by simpa using text)
  obtain rfl := eq_str_of_equals equal
  rw [spelled] at found
  obtain ⟨beyond, item⟩ := readRow_first found
  rw [read_skip] at item
  exact read_ne_str isMark item

/-- Where the first name in a list is the text of its value, the items behind it are read from the other names. -/
theorem exists_later_row (known : Readable v ∨ Unreadable v) (other : v.isText = false) (nonempty : later ≠ [])
    (room : (nameRow (v :: later)).length < fuel)
    (found : readRow (read fuel) ']' n (nameRow (v :: later) ++ ']' :: rest) = some ((w :: others, comma), behind)) :
    (nameRow later).length < fuel ∧ ∃ m last beyond,
      readRow (read fuel) ']' m (nameRow later ++ ']' :: rest) = some ((others, last), beyond) := by
  have whole : nameRow (v :: later) = v.chars ++ ',' :: ' ' :: nameRow later := by
    rw [nameRow, List.map_cons, List.intercalate_cons_of_ne_nil (by simpa using nonempty), wholeName_eq_text other,
      List.append_assoc]
    rfl
  rw [whole, List.length_append, List.length_cons, List.length_cons] at room
  rw [whole, List.append_assoc, List.cons_append, List.cons_append] at found
  have short : v.chars.length < fuel := by omega
  have stops := stops_cons (' ' :: (nameRow later ++ ']' :: rest)) (c := ',') (by decide)
  refine ⟨by omega, ?_⟩
  rcases known with readable | unreadable
  · cases n with
    | zero => contradiction
    | succ n =>
      rw [readRow_next readable.starts isClosing_bracket _ (readable.reads short _ stops), readRow_space] at found
      obtain ⟨⟨⟨ws, last⟩, beyond⟩, row, same⟩ := Option.map_eq_some_iff.mp found
      obtain rfl := (List.cons.inj (Prod.mk.inj (Prod.mk.inj same).1).1).2
      exact ⟨n, last, beyond, row⟩
  · rw [readRow_unread unreadable.starts isClosing_bracket _ (unreadable.unread short _ stops)] at found
    contradiction

/-- Where the names in a list are read as its items, none of these is a text. -/
theorem no_text_of_readRow (formed : ∀ v ∈ vs, v.Formed) (room : (nameRow vs).length < fuel)
    (found : readRow (read fuel) ']' n (nameRow vs ++ ']' :: rest) = some ((ws, comma), behind))
    (equal : allEqual vs ws = true) : ∀ v ∈ vs, v.isText = false := by
  induction vs generalizing n ws comma behind with
  | nil => exact nofun
  | cons v later ih =>
    obtain ⟨w, others, rfl, same, alike⟩ := allEqual_cons equal
    obtain ⟨first, formedLater⟩ := List.forall_mem_cons.mp formed
    have other := not_isText_of_readRow same found
    refine List.forall_mem_cons.mpr ⟨other, ?_⟩
    by_cases nonempty : later = []
    · subst nonempty
      exact nofun
    · obtain ⟨short, m, last, beyond, row⟩ := exists_later_row (known_of_equal first same) other nonempty room found
      exact ih formedLater short row alike

end Row

theorem toList_bracketed_names (vs : List Value) : (bracketed (vs.map wholeName)).toList = '[' :: (nameRow vs ++ [']']) := by
  rw [bracketed, String.toList_append, String.toList_append, String.toList_intercalate, List.map_map]
  rfl

/-- What the names of some values in brackets are read as is a list. -/
theorem exists_row_of_evaluate {w : Value} (found : evaluate? (bracketed (vs.map wholeName)) = some w) :
    ∃ ws comma behind n, w = .list ws ∧ (nameRow vs).length < n ∧
      readRow (Expression.read n) ']' n (nameRow vs ++ [']']) = some ((ws, comma), behind) := by
  obtain ⟨⟨v, rest⟩, read, whole⟩ := Option.bind_eq_some_iff.mp found
  rw [toList_bracketed_names] at read
  change (readRow (Expression.read _) ']' _ _).map _ = _ at read
  obtain ⟨⟨⟨ws, comma⟩, behind⟩, row, same⟩ := Option.map_eq_some_iff.mp read
  obtain ⟨rfl, rfl⟩ := Prod.mk.inj same
  dsimp only at whole
  split at whole
  · exact ⟨ws, comma, behind, _, (Option.some.inj whole).symm, by simp only [List.length_cons, List.length_append]; omega, row⟩
  · contradiction

/-- Whether a value is told from the name that it has as an argument: a tuple is written as a list, and a list shows
its texts without quotes. -/
def isTold : Value → Bool
  | .tuple _ => false
  | .list vs => vs.all fun v => !v.isText
  | _ => true

theorem argumentName_list (told : (list vs).isTold = true) : (list vs).argumentName = (list vs).text := by
  have same : vs.map wholeName = texts vs := by
    rw [texts_eq_map]
    exact List.map_congr_left fun v member => wholeName_eq_text (by simpa using List.all_eq_true.mp told v member)
  rw [argumentName, same, bracketed, text]

/-- The name of a value as an argument is its source exactly if the value is plain and is told from its name. -/
theorem isSource_argumentName_iff (formed : v.Formed) :
    IsSource v v.argumentName ↔ v.isPlain = true ∧ v.isTold = true := by
  cases v with
  | list vs =>
    cases told : (list vs).isTold with
    | true => rw [argumentName_list told, isSource_text_iff formed, and_iff_left rfl]
    | false =>
      refine iff_of_false ?_ (by simp)
      rintro ⟨w, found, equal⟩
      obtain ⟨ws, comma, behind, n, rfl, room, row⟩ := exists_row_of_evaluate found
      have items := no_text_of_readRow (everyItem_iff.mp formed) room row equal
      exact Bool.eq_false_iff.mp told (List.all_eq_true.mpr fun v member => by rw [items v member]; rfl)
  | tuple vs =>
    refine iff_of_false ?_ (by simp [isTold])
    rintro ⟨w, found, equal⟩
    obtain ⟨ws, -, -, -, rfl, -, -⟩ := exists_row_of_evaluate found
    contradiction
  | ellipsis => exact iff_of_true ⟨.ellipsis, rfl, rfl⟩ ⟨rfl, rfl⟩
  | null | bool | int | float | str | bytes | dict | set | frozenSet | member | object =>
    exact (isSource_text_iff formed).trans (and_iff_left rfl).symm

end Value
end SyncFacade
