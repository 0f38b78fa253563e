import SyncFacade.Proofs.Value.Characters

/-! Values read back from their texts. A plain value is read from its text, whatever this stands in; the text of a
value with an infinity in it is not read, since the name of the infinity means nothing. -/
namespace SyncFacade.Value

open Decimal (Double Canonical)
open Expression

/-- A value is read from its text in more steps than the text is long. -/
structure Readable (v : Value) : Prop where
  starts : Starts v.chars
  reads : ∀ {fuel}, v.chars.length < fuel → Reads (read fuel) v.chars v

/-- Nothing is read from the text of a value. -/
structure Unreadable (v : Value) : Prop where
  starts : Starts v.chars
  unread : ∀ {fuel}, v.chars.length < fuel → Unread (read fuel) v.chars

variable {v : Value} {vs : List Value} {es : List (Value × Value)} {fuel : Nat}

theorem length_chars_pos (starts : Starts v.chars) : 0 < v.chars.length := by
  obtain ⟨c, later, spelled, -⟩ := starts
  rw [spelled]
  exact Nat.succ_pos _

/-- A number or a name takes two steps at most. -/
theorem readable_of_steps (starts : Starts v.chars) (reads : ∀ fuel, Reads (read (fuel + 2)) v.chars v) : Readable v where
  starts := starts
  reads {fuel} room := by
    have enough : 2 ≤ fuel := Nat.lt_of_le_of_lt (length_chars_pos starts) room
    obtain ⟨fuel, rfl⟩ := Nat.exists_eq_add_of_le' enough
    exact reads fuel

theorem readable_name {name : String} (isName : IsName name) (known : constant? name = some v)
    (spelled : v.chars = name.toList) (starts : Starts v.chars) : Readable v := by
  refine readable_of_steps starts fun fuel rest stops => ?_
  rw [spelled, read_name isName stops, known]
  rfl

theorem readable_str (s : String) : Readable (.str s) := by
  refine readable_of_steps (starts_chars (v := .str s) rfl) fun fuel rest _ => ?_
  have quotes := Text.isQuote_quoteFor (s.toList.contains '\'') (s.toList.contains '"')
  rw [chars_str, ← readText_quoted s rest]
  exact read_quote quotes _

theorem readable_bytes (bs : List UInt8) : Readable (.bytes bs) := by
  refine readable_of_steps (starts_chars (v := .bytes bs) rfl) fun fuel rest _ => ?_
  obtain ⟨quote, literal, spelled, quotes, read⟩ := Text.readQuoted_quotedBytes bs
  have same : (bs.map UInt8.toNat).map UInt8.ofNat = bs := by
    rw [List.map_map]
    exact List.map_id'' (fun b => UInt8.ofNat_toNat) _
  rw [chars, text, String.toList_ofList, spelled, List.cons_append, List.cons_append, read_bytes quotes, readBytes, read,
    Option.map_some]
  dsimp only
  rw [same]

theorem settled (known : Readable v ∨ Unreadable v) (room : v.chars.length < fuel) :
    Starts v.chars ∧ (Reads (read fuel) v.chars v ∨ Unread (read fuel) v.chars) :=
  known.elim (fun readable => ⟨readable.starts, .inl (readable.reads room)⟩)
    fun unreadable => ⟨unreadable.starts, .inr (unreadable.unread room)⟩

section Row

variable {close : Char} (closing : IsClosing close)

theorem length_lt_of_row (member : v ∈ vs) (room : (rowChars vs).length < fuel) : v.chars.length < fuel :=
  Nat.lt_of_le_of_lt (length_le_row (List.mem_map_of_mem member)) room

include closing

theorem readRow_values (readable : ∀ v ∈ vs, Readable v) (room : (rowChars vs).length < fuel) (rest : List Char) :
    readRow (read fuel) close fuel (rowChars vs ++ close :: rest) = some ((vs, false), rest) := by
  have starts : ∀ t ∈ vs.map chars, Starts t := List.forall_mem_map.mpr fun v member => (readable v member).starts
  have count := count_le_row starts
  rw [List.length_map] at count
  exact readRow_items closing (fun v member => ⟨(readable v member).starts,
    (readable v member).reads (length_lt_of_row member room)⟩) (Nat.lt_of_le_of_lt count room) rest

theorem readRow_values_fails (known : ∀ v ∈ vs, Readable v ∨ Unreadable v) (unread : ∃ v ∈ vs, Unreadable v)
    (room : (rowChars vs).length < fuel) (rest : List Char) :
    readRow (read fuel) close fuel (rowChars vs ++ close :: rest) = none := by
  obtain ⟨v, member, fails⟩ := unread
  exact readRow_fails closing (fun w among => settled (known w among) (length_lt_of_row among room))
    ⟨v, member, fails.unread (length_lt_of_row member room)⟩ rest

end Row

section Lists

theorem isClosing_bracket : IsClosing ']' := by
  unfold IsClosing
  decide

theorem isClosing_parenthesis : IsClosing ')' := by
  unfold IsClosing
  decide

theorem isClosing_brace : IsClosing '\x7d' := by
  unfold IsClosing
  decide

/-- The steps that are left for what a pair of brackets encloses. -/
theorem exists_step {c : Char} {cs behind : List Char} (room : (c :: (cs ++ behind)).length < fuel) :
    ∃ n, fuel = n + 1 ∧ cs.length + behind.length < n := by
  obtain ⟨n, rfl⟩ := Nat.exists_eq_succ_of_ne_zero (Nat.ne_zero_of_lt room)
  exact ⟨n, rfl, by simpa using room⟩

theorem enclosed_append (c close : Char) (cs rest : List Char) :
    c :: (cs ++ [close]) ++ rest = c :: (cs ++ close :: rest) := by
  rw [List.cons_append, List.append_assoc, List.singleton_append]

theorem read_bracket (cs : List Char) : read (fuel + 1) ('[' :: cs) =
    (readRow (read fuel) ']' fuel cs).map fun ((vs, _), cs) => (.list vs, cs) := rfl

theorem read_parenthesis (cs : List Char) : read (fuel + 1) ('(' :: cs) =
    (readRow (read fuel) ')' fuel cs).map fun ((vs, comma), cs) => (parenthesized vs comma, cs) := rfl

theorem read_brace (cs : List Char) : read (fuel + 1) ('\x7b' :: cs) = readBraces (read fuel) fuel cs := rfl

theorem readable_list (readable : ∀ v ∈ vs, Readable v) : Readable (.list vs) where
  starts := starts_chars rfl
  reads {fuel} room rest _ := by
    rw [chars_list] at room ⊢
    obtain ⟨fuel, rfl, inside⟩ := exists_step room
    rw [enclosed_append, read_bracket, readRow_values isClosing_bracket readable (Nat.lt_of_add_right_lt inside)]
    rfl

theorem unreadable_list (known : ∀ v ∈ vs, Readable v ∨ Unreadable v) (unread : ∃ v ∈ vs, Unreadable v) :
    Unreadable (.list vs) where
  starts := starts_chars rfl
  unread {fuel} room rest _ := by
    rw [chars_list] at room ⊢
    obtain ⟨fuel, rfl, inside⟩ := exists_step room
    rw [enclosed_append, read_bracket,
      readRow_values_fails isClosing_bracket known unread (Nat.lt_of_add_right_lt inside)]
    rfl

theorem parenthesized_several (several : vs.length ≠ 1) : parenthesized vs false = .tuple vs := by
  match vs, several with
  | [], _ => rfl
  | _ :: _ :: _, _ => rfl

theorem readable_tuple (readable : ∀ v ∈ vs, Readable v) : Readable (.tuple vs) where
  starts := starts_chars rfl
  reads {fuel} room rest _ := by
    by_cases single : vs.length = 1
    · obtain ⟨v, rfl⟩ := List.length_eq_one_iff.mp single
      obtain ⟨starts, reads⟩ := readable v List.mem_cons_self
      rw [chars_tuple_single] at room ⊢
      obtain ⟨fuel, rfl, inside⟩ := exists_step room
      obtain ⟨fuel, rfl⟩ : ∃ n, fuel = n + 2 :=
        Nat.exists_eq_add_of_le' (Nat.le_of_add_left_le (Nat.le_of_lt inside))
      rw [List.cons_append, List.append_assoc, List.cons_append, List.singleton_append, read_parenthesis,
        readRow_comma isClosing_parenthesis starts (reads (Nat.lt_of_add_right_lt inside))]
      rfl
    · rw [chars_tuple single] at room ⊢
      obtain ⟨fuel, rfl, inside⟩ := exists_step room
      rw [enclosed_append, read_parenthesis,
        readRow_values isClosing_parenthesis readable (Nat.lt_of_add_right_lt inside), Option.map_some]
      dsimp only
      rw [parenthesized_several single]

theorem unreadable_tuple (known : ∀ v ∈ vs, Readable v ∨ Unreadable v) (unread : ∃ v ∈ vs, Unreadable v) :
    Unreadable (.tuple vs) where
  starts := starts_chars rfl
  unread {fuel} room rest _ := by
    by_cases single : vs.length = 1
    · obtain ⟨v, rfl⟩ := List.length_eq_one_iff.mp single
      obtain ⟨_, member, fails⟩ := unread
      obtain rfl := List.mem_singleton.mp member
      rw [chars_tuple_single] at room ⊢
      obtain ⟨fuel, rfl, inside⟩ := exists_step room
      rw [List.cons_append, List.append_assoc, List.cons_append, List.singleton_append, read_parenthesis,
        readRow_unread fails.starts isClosing_parenthesis _
          (fails.unread (Nat.lt_of_add_right_lt inside) _ (stops_cons _ (by decide)))]
      rfl
    · rw [chars_tuple single] at room ⊢
      obtain ⟨fuel, rfl, inside⟩ := exists_step room
      rw [enclosed_append, read_parenthesis,
        readRow_values_fails isClosing_parenthesis known unread (Nat.lt_of_add_right_lt inside)]
      rfl

end Lists

section Braces

theorem dictOf_of_pairwise (distinct : es.Pairwise fun d e => d.1.equals e.1 = false) : dictOf es = .dict es := by
  have put_all (made : List (Value × Value)) (apart : (made ++ es).Pairwise fun d e => d.1.equals e.1 = false) :
      es.foldl dictOf.put made = made ++ es := by
    induction es generalizing made with
    | nil => simp
    | cons e es ih =>
      have unmet : made.any (·.1.equals e.1) = false := by
        rw [List.any_eq_false]
        intro d member
        simpa using (List.pairwise_append.mp apart).2.2 d member e List.mem_cons_self
      have put : dictOf.put made e = made ++ [e] := by simp [dictOf.put, unmet]
      rw [List.append_cons] at apart
      rw [List.foldl_cons, put, ih distinct.of_cons _ apart, List.append_assoc, List.singleton_append]
  rw [dictOf, put_all [] distinct, List.nil_append]

theorem dictionary?_of_areKeys (keys : areKeys (es.map Prod.fst) = true) : dictionary? es = some (.dict es) := by
  rw [areKeys, List.all_map, Bool.and_eq_true, decide_eq_true_eq, List.pairwise_map] at keys
  have hashable : es.all (·.1.hashable) = true := keys.1
  rw [dictionary?, if_pos hashable, dictOf_of_pairwise keys.2]

theorem set?_of_areKeys (keys : areKeys vs = true) : set? vs = some (.set vs) := by
  have same : (vs.map (·, Value.null)).map Prod.fst = vs := by
    rw [List.map_map]
    exact List.map_id vs
  rw [set?, dictionary?_of_areKeys (same.symm ▸ keys), Option.map_some, keySet, same]

theorem lengths_lt_of_entries {e : Value × Value} (member : e ∈ es)
    (room : ([',', ' '].intercalate (es.map entryChars)).length < fuel) :
    e.1.chars.length < fuel ∧ e.2.chars.length < fuel := by
  have short := Nat.lt_of_le_of_lt (length_le_row (List.mem_map_of_mem (f := entryChars) member)) room
  simp only [entryChars, List.length_append, List.length_cons] at short
  omega

theorem readable_dict (keys : areKeys (es.map Prod.fst) = true) (readable : ∀ e ∈ es, Readable e.1 ∧ Readable e.2) :
    Readable (.dict es) where
  starts := starts_chars rfl
  reads {fuel} room rest _ := by
    rw [chars_dict] at room ⊢
    obtain ⟨fuel, rfl, inside⟩ := exists_step room
    have within := Nat.lt_of_add_right_lt inside
    have spelled (e) (member : e ∈ es) : Starts (entryChars e) ∧ Reads (readEntry (read fuel)) (entryChars e) e := by
      obtain ⟨key, value⟩ := readable e member
      obtain ⟨keyShort, valueShort⟩ := lengths_lt_of_entries member within
      exact ⟨starts_append key.starts _, readEntry_reads (read_space fuel) (key.reads keyShort) (value.reads valueShort)⟩
    have starts : ∀ t ∈ es.map entryChars, Starts t := List.forall_mem_map.mpr fun e member => (spelled e member).1
    have count := count_le_row starts
    rw [List.length_map] at count
    rw [enclosed_append, read_brace, readBraces,
      readRow_items isClosing_brace spelled (Nat.lt_of_le_of_lt count within)]
    dsimp only
    rw [dictionary?_of_areKeys keys]
    rfl

/-- Where neither the entries of a dictionary nor the items of a set are read, nothing is. -/
theorem readBraces_fails {readItem : List Char → Option (Value × List Char)} {cs : List Char}
    (entries : readRow (readEntry readItem) '\x7d' fuel cs = none) (items : readRow readItem '\x7d' fuel cs = none) :
    readBraces readItem fuel cs = none := by
  rw [readBraces, entries, items]
  rfl

/-- Entries are no items of a set. -/
theorem readRow_entries (nonempty : es ≠ []) (known : ∀ e ∈ es, Readable e.1 ∨ Unreadable e.1)
    (room : ([',', ' '].intercalate (es.map entryChars)).length < fuel) (rest : List Char) :
    readRow (read fuel) '\x7d' fuel ([',', ' '].intercalate (es.map entryChars) ++ '\x7d' :: rest) = none := by
  obtain ⟨e, later, rfl⟩ := List.exists_cons_of_ne_nil nonempty
  have short := (lengths_lt_of_entries List.mem_cons_self room).1
  obtain ⟨behind, spelled⟩ : ∃ behind, [',', ' '].intercalate ((e :: later).map entryChars) ++ '\x7d' :: rest =
      e.1.chars ++ ':' :: behind := by
    cases later with
    | nil => exact ⟨_, by rw [List.map_singleton, List.intercalate_singleton, entryChars, List.append_assoc]; rfl⟩
    | cons d later =>
      exact ⟨_, by
        rw [List.map_cons, List.map_cons, List.intercalate_cons_cons, entryChars, List.append_assoc, List.append_assoc,
          List.append_assoc, List.cons_append]⟩
  obtain ⟨starts, read⟩ := settled (known e List.mem_cons_self) short
  rw [spelled]
  exact readRow_colon fuel isClosing_brace starts read behind

theorem unreadable_dict
    (known : ∀ e ∈ es, (Readable e.1 ∨ Unreadable e.1) ∧ (Readable e.2 ∨ Unreadable e.2))
    (unread : ∃ e ∈ es, Unreadable e.1 ∨ Unreadable e.2) : Unreadable (.dict es) where
  starts := starts_chars rfl
  unread {fuel} room rest _ := by
    obtain ⟨d, member, fails⟩ := unread
    rw [chars_dict] at room ⊢
    obtain ⟨fuel, rfl, inside⟩ := exists_step room
    have within := Nat.lt_of_add_right_lt inside
    have items := readRow_entries (List.ne_nil_of_mem member) (fun e member => (known e member).1) within rest
    rw [enclosed_append, read_brace]
    refine readBraces_fails (readRow_fails isClosing_brace (fun e member => ?_) ⟨d, member, ?_⟩ rest) items
    · obtain ⟨keyShort, valueShort⟩ := lengths_lt_of_entries member within
      obtain ⟨starts, key⟩ := settled (known e member).1 keyShort
      obtain ⟨-, value⟩ := settled (known e member).2 valueShort
      exact ⟨starts_append starts _, readEntry_settled (read_space fuel) key value⟩
    · obtain ⟨keyShort, valueShort⟩ := lengths_lt_of_entries member within
      obtain ⟨-, key⟩ := settled (known d member).1 keyShort
      exact readEntry_unread (read_space fuel) key
        (fails.imp (fun unread => unread.unread keyShort) fun unread => unread.unread valueShort)

/-- Items of a set are no entries. -/
theorem readRow_notEntries (nonempty : vs ≠ []) (known : ∀ v ∈ vs, Readable v ∨ Unreadable v)
    (room : (rowChars vs).length < fuel) (rest : List Char) :
    readRow (readEntry (read fuel)) '\x7d' fuel (rowChars vs ++ '\x7d' :: rest) = none := by
  obtain ⟨v, later, rfl⟩ := List.exists_cons_of_ne_nil nonempty
  obtain ⟨c, behind, ends, spelled⟩ : ∃ c behind, c ∈ [',', '\x7d'] ∧
      rowChars (v :: later) ++ '\x7d' :: rest = v.chars ++ c :: behind := by
    cases later with
    | nil => exact ⟨'\x7d', rest, by decide, by rw [rowChars, List.map_singleton, List.intercalate_singleton]⟩
    | cons w later =>
      exact ⟨',', _, by decide, by
        rw [rowChars, List.map_cons, List.map_cons, List.intercalate_cons_cons, List.append_assoc, List.append_assoc]
        rfl⟩
  have table : ∀ c ∈ [',', '\x7d'], c ∈ [',', ')', ']', '\x7d', ':'] ∧ c ≠ ' ' ∧ c ≠ ':' :=
    Text.forall_mem_of_all (by decide)
  have other := table c ends
  obtain ⟨starts, first⟩ := settled (known v List.mem_cons_self) (length_lt_of_row List.mem_cons_self room)
  have noEntry : readEntry (Expression.read fuel) (v.chars ++ c :: behind) = none := by
    rcases first with reads | unread
    · rw [readEntry, reads _ (stops_cons behind other.1), Option.bind_some]
      dsimp only
      rw [skip_cons behind other.2.1, List.head?_cons, if_neg (by simpa using other.2.2)]
    · rw [readEntry, unread _ (stops_cons behind other.1), Option.bind_none]
  rw [spelled]
  exact readRow_unread starts isClosing_brace fuel noEntry

theorem readable_set (nonempty : vs ≠ []) (keys : areKeys vs = true) (readable : ∀ v ∈ vs, Readable v) :
    Readable (.set vs) where
  starts := starts_chars rfl
  reads {fuel} room rest _ := by
    rw [chars_set nonempty] at room ⊢
    obtain ⟨fuel, rfl, inside⟩ := exists_step room
    have within := Nat.lt_of_add_right_lt inside
    rw [enclosed_append, read_brace, readBraces,
      readRow_notEntries nonempty (fun v member => .inl (readable v member)) within,
      readRow_values isClosing_brace readable within, Option.bind_some]
    dsimp only
    rw [set?_of_areKeys keys]
    rfl

theorem unreadable_set (known : ∀ v ∈ vs, Readable v ∨ Unreadable v) (unread : ∃ v ∈ vs, Unreadable v) :
    Unreadable (.set vs) where
  starts := starts_chars rfl
  unread {fuel} room rest _ := by
    have nonempty : vs ≠ [] := unread.elim fun v among => List.ne_nil_of_mem among.1
    rw [chars_set nonempty] at room ⊢
    obtain ⟨fuel, rfl, inside⟩ := exists_step room
    have within := Nat.lt_of_add_right_lt inside
    rw [enclosed_append, read_brace]
    exact readBraces_fails (readRow_notEntries nonempty known within rest)
      (readRow_values_fails isClosing_brace known unread within rest)

end Braces

section Calls

theorem isName_set : IsName "set" := ⟨by decide, by decide⟩

theorem isName_frozenset : IsName "frozenset" := ⟨by decide, by decide⟩

/-- A call without arguments. -/
theorem readable_emptyCall {name : String} (isName : IsName name) (known : call? name [] = some v)
    (spelled : v.chars = name.toList ++ ['(', ')']) (starts : Starts v.chars) : Readable v := by
  refine readable_of_steps starts fun fuel rest _ => ?_
  rw [spelled, List.append_assoc, List.cons_append, List.singleton_append, read_call isName,
    readRow_close _ rest isClosing_parenthesis, Option.bind_some]
  dsimp only
  rw [known]
  rfl

theorem length_lt_of_call (nonempty : vs ≠ []) (room : (frozenSet vs).chars.length < fuel) :
    ∃ n, fuel = n + 2 ∧ (set vs).chars.length < n + 1 := by
  rw [chars_frozenSet nonempty, List.length_append, List.length_cons, List.length_append] at room
  exact ⟨fuel - 2, by omega, by omega⟩

theorem readable_frozenSet (nonempty : vs ≠ []) (readable : Readable (.set vs)) : Readable (.frozenSet vs) where
  starts := starts_chars rfl
  reads {fuel} room rest _ := by
    obtain ⟨fuel, rfl, inside⟩ := length_lt_of_call nonempty room
    have reads := readable.reads inside _ (stops_cons rest (c := ')') (by decide))
    rw [chars_frozenSet nonempty, List.append_assoc, List.cons_append, List.append_assoc, List.singleton_append,
      read_call isName_frozenset, readRow_last readable.starts isClosing_parenthesis _ reads]
    rfl

theorem unreadable_frozenSet (nonempty : vs ≠ []) (unreadable : Unreadable (.set vs)) : Unreadable (.frozenSet vs) where
  starts := starts_chars rfl
  unread {fuel} room rest _ := by
    obtain ⟨fuel, rfl, inside⟩ := length_lt_of_call nonempty room
    have unread := unreadable.unread inside _ (stops_cons rest (c := ')') (by decide))
    rw [chars_frozenSet nonempty, List.append_assoc, List.cons_append, List.append_assoc, List.singleton_append,
      read_call isName_frozenset, readRow_unread unreadable.starts isClosing_parenthesis _ unread]
    rfl

end Calls

end SyncFacade.Value
