import SyncFacade.Proofs.Source.Literal

/-! The text that a literal of a documentation stands for. Reading takes the escapes away and stops at the first three
quotes that have none. The value is divided at line feeds only, and has the indentation of the source in its further
lines, so that the lines of the documentation come back when the indentation is taken off. A text with a null character
is written as it is, and source with one is not read at all. -/
namespace SyncFacade.Docstring

/-- What stands before three quotes that end a text, with its escaped quotes as quotes. There are no other escapes, and
no source has a null character. -/
def content? : List Char → Option (List Char)
  | '\x00' :: _ => none
  | '\\' :: '"' :: cs => (content? cs).map ('"' :: ·)
  | '\\' :: _ => none
  | '"' :: '"' :: '"' :: rest => if rest = [] then some [] else none
  | c :: cs => (content? cs).map (c :: ·)
  | [] => none

/-- The text that a literal behind some spaces stands for. -/
def value? (source : String) : Option (List Char) :=
  match source.toList.dropWhile (· = ' ') with
  | '"' :: '"' :: '"' :: cs => content? cs
  | _ => none

example : value? "  \"\"\"A \\\"\\\"\\\" \"b\".\"\"\"" = some "A \"\"\" \"b\".".toList := by decide

def indentedLine (margin l : List Char) : List Char := if l.isEmpty then [] else margin ++ l

/-- The lines of a documentation as they stand in source. The last line of several is the end of the literal. -/
def indentedLines (margin : List Char) : List (List Char) → List (List Char)
  | first :: second :: rest => first :: ((second :: rest).map (indentedLine margin) ++ [margin])
  | ls => ls

theorem not_mem_indentedLines {c : Char} {margin : List Char} (outside : c ∉ margin) {ls : List (List Char)}
    (free : ∀ l ∈ ls, c ∉ l) : ∀ l ∈ indentedLines margin ls, c ∉ l := by
  match ls with
  | [] | [_] => exact free
  | first :: second :: rest =>
    obtain ⟨here, later⟩ := List.forall_mem_cons.mp free
    rw [indentedLines, List.forall_mem_cons, List.forall_mem_append, List.forall_mem_singleton]
    refine ⟨here, fun l member => ?_, outside⟩
    obtain ⟨k, listed, rfl⟩ := List.mem_map.mp member
    unfold indentedLine
    split <;> simp [outside, later k listed]

/-- All lines but the last, without their indentation; a line on its own as it is. -/
def unindentedLines (margin : List Char) : List (List Char) → List (List Char)
  | first :: rest => first :: rest.dropLast.map (·.drop margin.length)
  | [] => []

theorem drop_indentedLine (margin l : List Char) : (indentedLine margin l).drop margin.length = l := by
  cases l <;> simp [indentedLine]

theorem unindented_indented (margin : List Char) (ls : List (List Char)) :
    unindentedLines margin (indentedLines margin ls) = ls := by
  match ls with
  | [] | [_] => rfl
  | first :: second :: rest =>
    rw [indentedLines, unindentedLines, List.dropLast_concat, List.map_map]
    simp [Function.comp_def, drop_indentedLine]

/-- The characters of a text stand for themselves in a literal, quotes aside. -/
structure IsPlain (cs : List Char) : Prop where
  backslash : '\\' ∉ cs
  null : '\x00' ∉ cs

section Reading

variable {c : Char} {l rest margin : List Char}

theorem IsPlain.of_subset {cs : List Char} (plain : IsPlain cs) (subset : l ⊆ cs) : IsPlain l :=
  ⟨fun inside => plain.backslash (subset inside), fun inside => plain.null (subset inside)⟩

theorem isPlain_of_spaces (spaces : ∀ c ∈ margin, c = ' ') : IsPlain margin :=
  ⟨fun inside => absurd (spaces _ inside) (by decide), fun inside => absurd (spaces _ inside) (by decide)⟩

theorem content?_cons (backslash : c ≠ '\\') (null : c ≠ '\x00') (apart : ¬ tripleQuote <+: c :: rest) :
    content? (c :: rest) = (content? rest).map (c :: ·) := by
  rw [content?]
  · exact null
  · rintro cs rfl
    contradiction
  · exact backslash
  · rintro cs rfl rfl
    exact apart ⟨cs, rfl⟩

/-- What follows a text does not make three quotes of those that it has. -/
theorem not_tripleQuote_first (apart : ¬ tripleQuote <+: c :: l)
    (ends : (c :: l).getLast? = some '"' → ¬ ['"'] <+: rest) : ¬ tripleQuote <+: c :: (escapeTriples l ++ rest) := by
  intro first
  obtain ⟨rfl, second⟩ := List.cons_prefix_cons.mp first
  cases l with
  | nil => exact ends rfl ((List.prefix_append ['"'] ['"']).trans second)
  | cons d l =>
    have unescaped : ¬ tripleQuote <+: d :: l := fun three =>
      apart (List.cons_prefix_cons.mpr ⟨rfl, (List.prefix_append ['"', '"'] ['"']).trans three⟩)
    rw [escapeTriples_cons unescaped, List.cons_append] at second
    obtain ⟨rfl, third⟩ := List.cons_prefix_cons.mp second
    cases l with
    | nil => exact ends rfl third
    | cons e l =>
      have quote : e ≠ '"' := by
        rintro rfl
        exact apart ⟨l, rfl⟩
      rw [escapeTriples_cons (by simp [tripleQuote, Ne.symm quote]), List.cons_append] at third
      exact quote (List.cons_prefix_cons.mp third).1.symm

theorem content?_escapeTriples (plain : IsPlain l) (ends : l.getLast? = some '"' → ¬ ['"'] <+: rest) :
    content? (escapeTriples l ++ rest) = (content? rest).map (l ++ ·) := by
  fun_induction escapeTriples l with
  | case1 cs ih =>
    have later := ih (plain.of_subset (List.subset_append_right tripleQuote cs)) fun last => ends (by simp [List.getLast?_cons, last])
    simp [content?, later, Function.comp_def]
  | case2 c cs apart ih =>
    have apart := tripleQuote_not_first apart
    have backslash : c ≠ '\\' := fun same => plain.backslash (same ▸ List.mem_cons_self)
    have null : c ≠ '\x00' := fun same => plain.null (same ▸ List.mem_cons_self)
    have later := ih (plain.of_subset (List.subset_cons_self c cs)) fun last =>
      ends (by simp [List.getLast?_cons, last])
    rw [List.cons_append, content?_cons backslash null (not_tripleQuote_first apart ends), later]
    simp [Function.comp_def]
  | case3 => simp

/-- Lines that are each ended are read as they were before they were escaped. -/
theorem content?_ended {ls : List (List Char)} (plain : ∀ l ∈ ls, IsPlain l) (rest : List Char) :
    content? ((Text.ended ((ls.map escapeTriples).map String.ofList)).toList ++ rest) =
      (content? rest).map ((Text.ended (ls.map String.ofList)).toList ++ ·) := by
  induction ls with
  | nil => simp
  | cons l ls ih =>
    obtain ⟨here, later⟩ := List.forall_mem_cons.mp plain
    have spelled (l : List Char) (ls : List (List Char)) : (Text.ended ((l :: ls).map String.ofList)).toList =
        l ++ '\n' :: (Text.ended (ls.map String.ofList)).toList := by simp
    have feed (cs : List Char) : content? ('\n' :: cs) = (content? cs).map ('\n' :: ·) :=
      content?_cons (by decide) (by decide) (by simp [tripleQuote])
    rw [List.map_cons, spelled, spelled, List.append_assoc, List.cons_append, content?_escapeTriples here (by simp),
      feed, ih later, Option.map_map, Option.map_map]
    simp only [Function.comp_def, List.append_assoc, List.cons_append]

theorem escapeTriples_indented (spaces : ∀ c ∈ margin, c = ' ') (l : List Char) :
    escapeTriples (margin ++ l) = margin ++ escapeTriples l := by
  induction margin with
  | nil => rfl
  | cons c margin ih =>
    obtain ⟨rfl, later⟩ := List.forall_mem_cons.mp spaces
    rw [List.cons_append, escapeTriples_cons (by simp [tripleQuote]), ih later, List.cons_append]

theorem isEmpty_escapeTriples (l : List Char) : (escapeTriples l).isEmpty = l.isEmpty := by
  fun_cases escapeTriples l <;> rfl

/-- Escaping and indenting a line can change places. -/
theorem indentedLine_escapeTriples (spaces : ∀ c ∈ margin, c = ' ') (l : List Char) :
    indentedLine margin (escapeTriples l) = escapeTriples (indentedLine margin l) := by
  rw [indentedLine, indentedLine, isEmpty_escapeTriples]
  split
  · rfl
  · exact (escapeTriples_indented spaces l).symm

theorem value?_of_spelled (spaces : ∀ c ∈ margin, c = ' ') {source : String} {body : List Char}
    (spelled : source.toList = margin ++ tripleQuote ++ body) : value? source = content? body := by
  have skipped : source.toList.dropWhile (· = ' ') = tripleQuote ++ body := by
    rw [spelled, List.append_assoc, List.dropWhile_append_of_pos (by simpa using spaces)]
    rfl
  rw [value?, skipped]
  rfl

/-- The indentation before the closing quotes belongs to the text. -/
theorem content?_closing (spaces : ∀ c ∈ margin, c = ' ') : content? (margin ++ tripleQuote) = some margin := by
  have last : margin.getLast? = some '"' → ¬ ['"'] <+: tripleQuote := fun quote =>
    absurd (spaces _ (List.mem_of_getLast? quote)) (by decide)
  have unescaped : escapeTriples margin = margin := by simpa [escapeTriples] using escapeTriples_indented spaces []
  have read := content?_escapeTriples (isPlain_of_spaces spaces) last
  rw [unescaped] at read
  simpa [tripleQuote, content?] using read

end Reading

/-- The literal of a text is read as the text with the indentation of the source in its further lines. -/
theorem exists_value {indent doc : String} (spaces : ∀ c ∈ indent.toList, c = ' ') (content : doc ≠ "")
    (plain : IsPlain doc.toList) (ends : ∀ l, Text.lines doc.toList = [l] → l.getLast? ≠ some '"') :
    ∃ lines, literal indent doc = .ok lines ∧ value? (Text.joinLines lines) =
      some (Text.joinLines ((indentedLines indent.toList (Text.lines doc.toList)).map String.ofList)).toList := by
  have escaped := lines_escapeTriples doc.toList
  have plainLines : ∀ l ∈ Text.lines doc.toList, IsPlain l := fun l member =>
    plain.of_subset (Text.subset_of_mem_lines member)
  cases divided : Text.lines doc.toList with
  | nil => exact absurd (String.toList_eq_nil_iff.mp (Text.lines_eq_nil_iff.mp divided)) content
  | cons first others =>
    rw [divided] at escaped plainLines
    have plainFirst := plainLines first List.mem_cons_self
    cases others with
    | nil =>
      refine ⟨_, by rw [literal, literalLines, escaped]; rfl, ?_⟩
      have spelled : (Text.joinLines ([indent.toList ++ tripleQuote ++ escapeTriples first ++ tripleQuote].map
          String.ofList)).toList = indent.toList ++ tripleQuote ++ (escapeTriples first ++ tripleQuote) := by
        simp [Text.joinLines]
      rw [value?_of_spelled spaces spelled,
        content?_escapeTriples plainFirst fun quote => absurd quote (ends first divided)]
      simp [tripleQuote, content?, Text.joinLines, indentedLines]
    | cons second rest =>
      refine ⟨_, by rw [literal, literalLines, escaped]; rfl, ?_⟩
      have written : escapeTriples first :: ((second :: rest).map escapeTriples).map (indentedLine indent.toList) =
          (first :: (second :: rest).map (indentedLine indent.toList)).map escapeTriples := by
        simp [indentedLine_escapeTriples spaces]
      have margin := isPlain_of_spaces spaces
      have plainIndented : ∀ l ∈ first :: (second :: rest).map (indentedLine indent.toList), IsPlain l :=
        fun l member =>
          ⟨not_mem_indentedLines margin.backslash (fun k among => (plainLines k among).backslash) l
              (List.mem_append_left [indent.toList] member),
            not_mem_indentedLines margin.null (fun k among => (plainLines k among).null) l
              (List.mem_append_left [indent.toList] member)⟩
      have read := content?_ended plainIndented (indent.toList ++ tripleQuote)
      rw [content?_closing spaces, ← written] at read
      rw [value?_of_spelled spaces (joinLines_literal ..)]
      refine read.trans (congrArg some ?_)
      rw [indentedLines, ← List.cons_append, List.map_append, List.map_singleton, Text.joinLines_concat]
      simp

/-- Four quotes inside, an empty line, and a quote at the end. -/
def quotedRemark : String := "Say \"\"\"\" twice.\n\nOr \"hi\""

section Null

variable {cs : List Char}

theorem mem_escapeTriples {c : Char} (inside : c ∈ cs) : c ∈ escapeTriples cs := by
  fun_induction escapeTriples cs with
  | case1 cs ih =>
    simp only [List.mem_cons] at inside ⊢
    grind
  | case2 d cs apart ih => exact (List.mem_cons.mp inside).elim (by simp [·]) fun later => List.mem_cons_of_mem d (ih later)
  | case3 => contradiction

theorem content?_of_null (inside : '\x00' ∈ cs) : content? cs = none := by
  fun_induction content? cs with
  | case1 => rfl
  | case2 cs ih => simp [ih (by simpa using inside)]
  | case3 => rfl
  | case4 => simp at inside
  | case5 => rfl
  | case6 c cs null _ _ _ ih =>
    have later : '\x00' ∈ cs := (List.mem_cons.mp inside).resolve_left (null ·.symm)
    simp [ih later]
  | case7 => rfl

theorem value?_of_null {source : String} (inside : '\x00' ∈ source.toList) : value? source = none := by
  have behind : '\x00' ∈ source.toList.dropWhile (· = ' ') := by
    rw [← List.takeWhile_append_dropWhile (p := (· = ' ')) (l := source.toList), List.mem_append] at inside
    exact inside.resolve_left fun space => absurd (List.mem_takeWhile_imp space) (by decide)
  unfold value?
  split
  · next cs spelled =>
    rw [spelled] at behind
    exact content?_of_null (by simpa using behind)
  · rfl

theorem exists_null_row {margin : List Char} {rows : List (List Char)} (made : literalLines margin cs = some rows)
    (inside : '\x00' ∈ cs) : ∃ row ∈ rows, '\x00' ∈ row := by
  obtain ⟨l, divided, null⟩ := Text.exists_mem_lines (by decide) (mem_escapeTriples inside)
  unfold literalLines at made
  split at made
  · contradiction
  · next only spelled =>
    cases made
    cases List.mem_singleton.mp (spelled ▸ divided)
    exact ⟨_, List.mem_singleton_self _, by simp [null]⟩
  · next first rest _ spelled =>
    cases made
    rcases List.mem_cons.mp (spelled ▸ divided) with rfl | later
    · exact ⟨_, List.mem_cons_self, by simp [null]⟩
    · have shown : l.isEmpty = false := List.isEmpty_eq_false_iff.mpr (List.ne_nil_of_mem null)
      refine ⟨margin ++ l, List.mem_cons_of_mem _ (List.mem_append_left _ ?_), by simp [null]⟩
      exact List.mem_map.mpr ⟨l, later, by simp [shown]⟩

/-- A text with a null character has a literal like any other, but no source can be read with it. -/
theorem literal_unread {indent doc : String} (null : '\x00' ∈ doc.toList) :
    ∃ lines, literal indent doc = .ok lines ∧ value? (Text.joinLines lines) = none := by
  have content : doc ≠ "" := by
    rintro rfl
    contradiction
  obtain ⟨lines, made⟩ : ∃ lines, literal indent doc = .ok lines := exists_literal content
  refine ⟨lines, made, value?_of_null ?_⟩
  unfold literal at made
  split at made
  · next rows spelled =>
    cases made
    obtain ⟨row, listed, inside⟩ := exists_null_row spelled null
    exact Text.mem_joinLines (List.mem_map_of_mem listed) (by simpa using inside)
  · contradiction

end Null

/-- A line with a null character between two words. -/
def nullRemark : String := "Fields are separated by \x00."

end SyncFacade.Docstring
