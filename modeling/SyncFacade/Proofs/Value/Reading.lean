import SyncFacade.Proofs.Value.Number
import SyncFacade.Proofs.Value.Plain

/-! The texts of values as expressions. The text of a plain value is read as this value, whatever it stands in, and a
text with an infinity in it is not read at all: its name means nothing. -/
namespace SyncFacade.Expression

/-- What the text of an expression begins with is neither a space nor a closing bracket. -/
def Starts (cs : List Char) : Prop := ∃ c later, cs = c :: later ∧ c ∉ [' ', ')', ']', '\x7d']

/-- A text is read as something where an expression may end behind it. -/
def Reads {α : Type} (readItem : List Char → Option (α × List Char)) (cs : List Char) (a : α) : Prop :=
  ∀ rest, Stops rest → readItem (cs ++ rest) = some (a, rest)

/-- A text is not read where an expression may end behind it. -/
def Unread {α : Type} (readItem : List Char → Option (α × List Char)) (cs : List Char) : Prop :=
  ∀ rest, Stops rest → readItem (cs ++ rest) = none

theorem starts_digit {c : Char} (digit : c.isDigit = true) (cs : List Char) : Starts (c :: cs) := by
  refine ⟨c, cs, rfl, fun apart => ?_⟩
  have table : ∀ c ∈ [' ', ')', ']', '\x7d'], c.isDigit = false := Text.forall_mem_of_all (by decide)
  rw [table c apart] at digit
  contradiction

theorem starts_quote {c : Char} (quotes : Text.isQuote c = true) (cs : List Char) : Starts (c :: cs) := by
  refine ⟨c, cs, rfl, fun apart => ?_⟩
  have table : ∀ c ∈ [' ', ')', ']', '\x7d'], Text.isQuote c = false := Text.forall_mem_of_all (by decide)
  rw [table c apart] at quotes
  contradiction

theorem starts_append {cs : List Char} (starts : Starts cs) (rest : List Char) : Starts (cs ++ rest) := by
  obtain ⟨c, later, rfl, other⟩ := starts
  exact ⟨c, later ++ rest, rfl, other⟩

theorem skip_cons {c : Char} (cs : List Char) (other : c ≠ ' ') : skip (c :: cs) = c :: cs :=
  List.dropWhile_cons_of_neg (by simpa using other)

theorem skip_space (cs : List Char) : skip (' ' :: cs) = skip cs := List.dropWhile_cons_of_pos rfl

theorem read_space (fuel : Nat) (cs : List Char) : read fuel (' ' :: cs) = read fuel cs := by
  cases fuel with
  | zero => rfl
  | succ fuel => simp only [read, skip_space]

theorem stops_cons {c : Char} (cs : List Char) (closing : c ∈ [',', ')', ']', '\x7d', ':']) : Stops (c :: cs) := by
  rintro _ ⟨⟩
  exact closing

section Row

variable {α : Type} {readItem : List Char → Option (α × List Char)} {spell : α → List Char} {close : Char}

theorem readRow_space (fuel : Nat) (cs : List Char) :
    readRow readItem close fuel (' ' :: cs) = readRow readItem close fuel cs := by
  cases fuel with
  | zero => rfl
  | succ fuel => simp only [readRow, skip_space]

/-- The brackets that close a row. -/
def IsClosing (c : Char) : Prop := c ∈ [')', ']', '\x7d']

theorem IsClosing.apart (closing : IsClosing close) :
    close ≠ ' ' ∧ close ≠ ',' ∧ close ∈ [',', ')', ']', '\x7d', ':'] := by
  have table : ∀ c ∈ [')', ']', '\x7d'], c ≠ ' ' ∧ c ≠ ',' ∧ c ∈ [',', ')', ']', '\x7d', ':'] :=
    Text.forall_mem_of_all (by decide)
  exact table close closing

theorem readRow_close (fuel : Nat) (rest : List Char) (closing : IsClosing close) :
    readRow readItem close (fuel + 1) (close :: rest) = some (([], false), rest) := by
  rw [readRow, skip_cons rest closing.apart.1]
  exact if_pos rfl

section Item

variable {cs : List Char} (starts : Starts cs) (closing : IsClosing close)
include starts closing

/-- An item of a row does not begin like its end. -/
theorem item_ne_close (rest : List Char) :
    skip (cs ++ rest) = cs ++ rest ∧ (cs ++ rest).head? ≠ some close := by
  obtain ⟨c, later, rfl, other⟩ := starts
  simp only [List.mem_cons, List.not_mem_nil, or_false, not_or] at other
  refine ⟨skip_cons _ other.1, ?_⟩
  rintro ⟨⟩
  simp only [IsClosing, List.mem_cons, List.not_mem_nil, or_false] at closing
  grind

theorem readRow_last {a : α} (fuel : Nat) {rest : List Char}
    (read : readItem (cs ++ close :: rest) = some (a, close :: rest)) :
    readRow readItem close (fuel + 1) (cs ++ close :: rest) = some (([a], false), rest) := by
  obtain ⟨same, other⟩ := item_ne_close starts closing (close :: rest)
  obtain ⟨space, comma, -⟩ := closing.apart
  rw [readRow, same, if_neg other, read]
  simp [skip_cons rest space, comma]

theorem readRow_next {a : α} (fuel : Nat) {rest : List Char}
    (read : readItem (cs ++ ',' :: rest) = some (a, ',' :: rest)) :
    readRow readItem close (fuel + 1) (cs ++ ',' :: rest) = (readRow readItem close fuel rest).map
      fun ((as, comma), cs) => ((a :: as, as.isEmpty || comma), cs) := by
  obtain ⟨same, other⟩ := item_ne_close starts closing (',' :: rest)
  rw [readRow, same, if_neg other, read]
  simp [skip_cons rest (c := ',') (by decide)]

theorem readRow_unread (fuel : Nat) {rest : List Char} (unread : readItem (cs ++ rest) = none) :
    readRow readItem close fuel (cs ++ rest) = none := by
  obtain ⟨same, other⟩ := item_ne_close starts closing rest
  cases fuel with
  | zero => rfl
  | succ fuel => rw [readRow, same, if_neg other, unread, Option.bind_none]

end Item

variable {items : List α}

/-- Items with commas between them are read as a row. -/
theorem readRow_items {fuel : Nat} (closing : IsClosing close)
    (spelled : ∀ a ∈ items, Starts (spell a) ∧ Reads readItem (spell a) a) (enough : items.length < fuel)
    (rest : List Char) :
    readRow readItem close fuel ([',', ' '].intercalate (items.map spell) ++ close :: rest) =
      some ((items, false), rest) := by
  have stops := stops_cons rest closing.apart.2.2
  induction items generalizing fuel with
  | nil =>
    obtain ⟨fuel, rfl⟩ := Nat.exists_eq_add_of_lt enough
    exact readRow_close _ rest closing
  | cons a items ih =>
    obtain ⟨fuel, rfl⟩ := Nat.exists_eq_succ_of_ne_zero (Nat.ne_zero_of_lt enough)
    obtain ⟨⟨starts, reads⟩, later⟩ := List.forall_mem_cons.mp spelled
    cases items with
    | nil =>
      rw [List.map_singleton, List.intercalate_singleton]
      exact readRow_last starts closing _ (reads _ stops)
    | cons b items =>
      rw [List.map_cons, List.map_cons, List.intercalate_cons_cons, List.append_assoc, List.append_assoc,
        ← List.map_cons (f := spell), List.cons_append, List.cons_append, List.nil_append,
        readRow_next starts closing _ (reads _ (stops_cons _ (by decide))), readRow_space,
        ih later (Nat.lt_of_succ_lt_succ enough)]
      rfl

/-- One item with a comma behind it. -/
theorem readRow_comma {fuel : Nat} (closing : IsClosing close) {a : α} {cs : List Char} (starts : Starts cs)
    (reads : Reads readItem cs a) (rest : List Char) :
    readRow readItem close (fuel + 2) (cs ++ ',' :: close :: rest) = some (([a], true), rest) := by
  rw [readRow_next starts closing _ (reads _ (stops_cons _ (by decide))), readRow_close _ rest closing]
  rfl

/-- A row is not read if one of its items is not, wherever it stands. -/
theorem readRow_fails {fuel : Nat} (closing : IsClosing close)
    (known : ∀ a ∈ items, Starts (spell a) ∧ (Reads readItem (spell a) a ∨ Unread readItem (spell a)))
    (unread : ∃ a ∈ items, Unread readItem (spell a)) (rest : List Char) :
    readRow readItem close fuel ([',', ' '].intercalate (items.map spell) ++ close :: rest) = none := by
  induction items generalizing fuel with
  | nil => simp at unread
  | cons a items ih =>
    obtain ⟨⟨starts, first⟩, later⟩ := List.forall_mem_cons.mp known
    have here (fails : Unread readItem (spell a)) :
        readRow readItem close fuel ([',', ' '].intercalate ((a :: items).map spell) ++ close :: rest) = none := by
      cases items with
      | nil =>
        rw [List.map_singleton, List.intercalate_singleton]
        exact readRow_unread starts closing fuel (fails _ (stops_cons rest closing.apart.2.2))
      | cons b items =>
        rw [List.map_cons, List.map_cons, List.intercalate_cons_cons, List.append_assoc, List.append_assoc]
        exact readRow_unread starts closing fuel (fails _ (stops_cons _ (by decide)))
    obtain ⟨b, member, fails⟩ := unread
    rcases List.mem_cons.mp member with rfl | member
    · exact here fails
    · rcases first with reads | unread
      · have nonempty : items.map spell ≠ [] := mt List.map_eq_nil_iff.mp (List.ne_nil_of_mem member)
        rw [List.map_cons, List.intercalate_cons_of_ne_nil nonempty, List.append_assoc, List.append_assoc]
        cases fuel with
        | zero => rfl
        | succ fuel =>
          rw [List.cons_append, List.cons_append, List.nil_append,
            readRow_next starts closing _ (reads _ (stops_cons _ (by decide))), readRow_space,
            ih later ⟨b, member, fails⟩]
          rfl
      · exact here unread

/-- A row does not go on with a colon. -/
theorem readRow_colon {a : α} {cs : List Char} (fuel : Nat) (closing : IsClosing close) (starts : Starts cs)
    (known : Reads readItem cs a ∨ Unread readItem cs) (rest : List Char) :
    readRow readItem close fuel (cs ++ ':' :: rest) = none := by
  have stops := stops_cons rest (c := ':') (by decide)
  rcases known with reads | unread
  · obtain ⟨same, other⟩ := item_ne_close starts closing (':' :: rest)
    have colon : ':' ≠ close := by
      rintro rfl
      simp [IsClosing] at closing
    cases fuel with
    | zero => rfl
    | succ fuel =>
      rw [readRow, same, if_neg other, reads _ stops]
      simp [skip_cons rest (c := ':') (by decide), colon]
  · exact readRow_unread starts closing fuel (unread _ stops)

end Row

section Named

variable {name : String} (letters : ∀ c ∈ name.toList, isNameChar c = true)
  (readItem : List Char → Option (Value × List Char)) (fuel : Nat)
include letters

theorem readNamed_constant {rest : List Char} (stops : Stops rest) :
    readNamed readItem fuel (name.toList ++ rest) = (constant? name).map (·, rest) := by
  obtain ⟨taken, dropped⟩ := span_stop letters fun c first => (stops.apart first).2.1
  have uncalled : rest.head? ≠ some '(' := fun first => (stops.apart first).2.2.2.2.2.2 rfl
  rw [readNamed, taken, dropped, String.ofList_toList, if_neg uncalled]

theorem readNamed_call (cs : List Char) : readNamed readItem fuel (name.toList ++ '(' :: cs) =
    (readRow readItem ')' fuel cs).bind fun ((vs, _), cs) => (call? name vs).map (·, cs) := by
  have outside : ∀ c ∈ ('(' :: cs).head?, isNameChar c = false := by
    rintro _ ⟨⟩
    rfl
  obtain ⟨taken, dropped⟩ := span_stop letters outside
  rw [readNamed, taken, dropped, String.ofList_toList]
  exact if_pos rfl

end Named

section Entry

variable {readItem : List Char → Option (Value × List Char)} {k v : Value} {key value : List Char}
  (space : ∀ cs, readItem (' ' :: cs) = readItem cs)
include space

theorem readEntry_key (reads : Reads readItem key k) (rest : List Char) :
    readEntry readItem (key ++ ':' :: ' ' :: value ++ rest) = (readItem (value ++ rest)).map fun (v, cs) => ((k, v), cs) := by
  rw [readEntry, List.append_assoc, List.cons_append, List.cons_append, reads _ (stops_cons _ (by decide)),
    Option.bind_some]
  dsimp only
  rw [skip_cons _ (by decide), List.head?_cons, if_pos rfl, List.tail_cons, space]

theorem readEntry_reads (reads : Reads readItem key k) (alsoReads : Reads readItem value v) :
    Reads (readEntry readItem) (key ++ ':' :: ' ' :: value) (k, v) := by
  intro rest stops
  rw [readEntry_key space reads, alsoReads rest stops]
  rfl

/-- An entry is not read if its key or its value is not. -/
theorem readEntry_unread (first : Reads readItem key k ∨ Unread readItem key)
    (unread : Unread readItem key ∨ Unread readItem value) :
    Unread (readEntry readItem) (key ++ ':' :: ' ' :: value) := by
  intro rest stops
  have behind (keyUnread : Unread readItem key) : readEntry readItem (key ++ ':' :: ' ' :: value ++ rest) = none := by
    rw [readEntry, List.append_assoc, List.cons_append, keyUnread _ (stops_cons _ (by decide)), Option.bind_none]
  rcases first with reads | keyUnread
  · rcases unread with keyUnread | valueUnread
    · exact behind keyUnread
    · rw [readEntry_key space reads, valueUnread rest stops]
      rfl
  · exact behind keyUnread

theorem readEntry_settled (first : Reads readItem key k ∨ Unread readItem key)
    (second : Reads readItem value v ∨ Unread readItem value) :
    Reads (readEntry readItem) (key ++ ':' :: ' ' :: value) (k, v) ∨
      Unread (readEntry readItem) (key ++ ':' :: ' ' :: value) := by
  rcases first with reads | keyUnread
  · rcases second with alsoReads | valueUnread
    · exact .inl (readEntry_reads space reads alsoReads)
    · exact .inr (readEntry_unread space (.inl reads) (.inr valueUnread))
  · exact .inr (readEntry_unread space (k := k) (.inr keyUnread) (.inl keyUnread))

end Entry

/-- A name that nothing else is read from: its first letter marks neither a number nor a literal of bytes. -/
structure IsName (name : String) : Prop where
  letters : name.toList.all isNameChar = true
  begins : name.toList.head?.any (fun c => c.isAlpha && !c.isDigit && c ≠ 'b') = true

section Names

variable {fuel : Nat} {rest : List Char}

theorem read_letter {c : Char} (letter : c.isAlpha = true) (digit : c.isDigit = false) (other : c ≠ 'b') (cs : List Char) :
    read (fuel + 1) (c :: cs) = readNamed (read fuel) fuel (c :: cs) := by
  have apart {d : Char} (mark : d.isAlpha = false) : c ≠ d := by
    rintro rfl
    rw [letter] at mark
    contradiction
  rw [read, skip_cons cs (apart rfl)]
  simp [apart (d := '-') rfl, apart (d := '[') rfl, apart (d := '(') rfl, apart (d := '\x7b') rfl,
    apart (d := '.') rfl, apart (d := '\'') rfl, apart (d := '"') rfl, digit, Text.isQuote, other]

theorem IsName.read {name : String} (isName : IsName name) (cs : List Char) :
    read (fuel + 1) (name.toList ++ cs) = readNamed (Expression.read fuel) fuel (name.toList ++ cs) := by
  obtain ⟨c, first, letter⟩ := (Option.any_eq_true _ _).mp isName.begins
  obtain ⟨later, spelled⟩ : ∃ later, name.toList = c :: later := List.head?_eq_some_iff.mp first
  simp only [Bool.and_eq_true, decide_eq_true_eq, Bool.not_eq_true'] at letter
  rw [spelled, List.cons_append, read_letter letter.1.1 letter.1.2 letter.2]

/-- A name by itself is a constant, or is not known. -/
theorem read_name {name : String} (isName : IsName name) (stops : Stops rest) :
    read (fuel + 1) (name.toList ++ rest) = (constant? name).map (·, rest) := by
  rw [isName.read, readNamed_constant (List.all_eq_true.mp isName.letters) _ _ stops]

theorem read_call {name : String} (isName : IsName name) (cs : List Char) :
    read (fuel + 1) (name.toList ++ '(' :: cs) =
      (readRow (read fuel) ')' fuel cs).bind fun ((vs, _), cs) => (call? name vs).map (·, cs) := by
  rw [isName.read, readNamed_call (List.all_eq_true.mp isName.letters)]

theorem read_quote {c : Char} (quotes : Text.isQuote c = true) (cs : List Char) :
    read (fuel + 1) (c :: cs) = readText (c :: cs) := by
  simp only [Text.isQuote, Bool.or_eq_true, decide_eq_true_eq] at quotes
  obtain rfl | rfl := quotes <;> rfl

theorem read_bytes {c : Char} (quotes : Text.isQuote c = true) (cs : List Char) :
    read (fuel + 1) ('b' :: c :: cs) = readBytes (c :: cs) := by
  simp only [Text.isQuote, Bool.or_eq_true, decide_eq_true_eq] at quotes
  obtain rfl | rfl := quotes <;> rfl

theorem readText_quoted (s : String) (rest : List Char) :
    readText (Text.quoted s.toList ++ rest) = some (.str s, rest) := by
  have valid : (s.toList.map Char.toNat).all (fun n => decide n.isValidChar) = true := by
    simp only [List.all_map, List.all_eq_true, Function.comp_apply, decide_eq_true_eq]
    exact fun c _ => c.valid
  have same : (s.toList.map Char.toNat).map Char.ofNat = s.toList := by
    rw [List.map_map]
    exact List.map_id'' (fun c => Char.ofNat_toNat c) _
  rw [readText, Text.readQuoted_quoted, Option.bind_some]
  dsimp only
  rw [if_pos valid, same, String.ofList_toList]

end Names

end SyncFacade.Expression
