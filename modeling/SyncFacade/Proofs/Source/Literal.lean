import SyncFacade.Proofs.Refusal
import Mathlib.Data.List.DropRight
import Mathlib.Data.List.Induction

/-! Where the literal of a documentation ends for those who read it. No three quotes of the text itself are met, so
that only the end of the text matters: quotes or backslashes there can meet the quotes that close the literal. A line
feed before these keeps them apart, so a text of more than one line always has a whole literal. -/
namespace SyncFacade.Docstring

/-- What stands behind the first three quotes in a row, where a backslash hides the character behind it. -/
def afterTriple? : List Char → Option (List Char)
  | '\\' :: _ :: cs => afterTriple? cs
  | '"' :: '"' :: '"' :: cs => some cs
  | _ :: cs => afterTriple? cs
  | [] => none

/-- A reader of a literal: so many quotes were read last, or the next character is hidden. -/
inductive Mark where
  | plain
  | one
  | two
  | hidden
deriving DecidableEq

namespace Mark

/-- Read a character, unless it is the third quote in a row. -/
def read (m : Mark) (c : Char) : Option Mark :=
  match m with
  | .hidden => some .plain
  | .plain => if c = '\\' then some .hidden else if c = '"' then some .one else some .plain
  | .one => if c = '\\' then some .hidden else if c = '"' then some .two else some .plain
  | .two => if c = '\\' then some .hidden else if c = '"' then none else some .plain

def readAll (m : Mark) (cs : List Char) : Option Mark := cs.foldlM read m

/-- What stands behind the first character that cannot be read. -/
def find (m : Mark) : List Char → Option (List Char)
  | [] => none
  | c :: cs => match m.read c with
    | some m => find m cs
    | none => some cs

/-- A text does not begin with the quotes that would end the literal here. -/
def Allows : Mark → List Char → Prop
  | .one, cs => ¬ ['"', '"'] <+: cs
  | .two, cs => ¬ ['"'] <+: cs
  | _, _ => True

variable {m m' : Mark} {c : Char} {cs : List Char}

@[simp] theorem read_of_ne (quote : c ≠ '"') (backslash : c ≠ '\\') : m.read c = some .plain := by
  cases m <;> simp [read, quote, backslash]

theorem read_backslash (m : Mark) : m.read '\\' = some (if m = .hidden then .plain else .hidden) := by
  cases m <;> rfl

theorem readAll_cons (m : Mark) (c : Char) (cs : List Char) :
    m.readAll (c :: cs) = (m.read c).bind fun m => m.readAll cs := List.foldlM_cons

theorem readAll_singleton (m : Mark) (c : Char) : m.readAll [c] = m.read c := by
  rw [readAll_cons]
  cases m.read c <;> rfl

theorem readAll_append (m : Mark) (before after : List Char) :
    m.readAll (before ++ after) = (m.readAll before).bind fun m => m.readAll after := List.foldlM_append

theorem readAll_spaces (spaces : ∀ c ∈ cs, c = ' ') : plain.readAll cs = some plain := by
  induction cs with
  | nil => rfl
  | cons c cs ih =>
    obtain ⟨rfl, later⟩ := List.forall_mem_cons.mp spaces
    rw [readAll_cons, read_of_ne (by decide) (by decide)]
    exact ih later

theorem find_append (before : m.readAll cs = some m') (rest : List Char) : m.find (cs ++ rest) = m'.find rest := by
  induction cs generalizing m with
  | nil =>
    cases before
    rfl
  | cons c cs ih =>
    rw [readAll_cons] at before
    obtain ⟨next, here, later⟩ := Option.bind_eq_some_iff.mp before
    rw [List.cons_append, find, here]
    exact ih later

theorem find_of_no_quote (other : ¬ ['"'] <+: cs) (seen : m ≠ .hidden) : m.find cs = plain.find cs := by
  cases cs with
  | nil => rfl
  | cons c cs =>
    have quote : c ≠ '"' := fun same => other (by simp [same])
    have same : m.read c = plain.read c := by cases m <;> simp_all [read]
    rw [find, find, same]

theorem find_one (pair : ¬ ['"', '"'] <+: cs) : one.find cs = plain.find cs := by
  cases cs with
  | nil => rfl
  | cons c cs =>
    by_cases quote : c = '"'
    · have other : ¬ ['"'] <+: cs := fun first => pair (by simpa [quote] using first)
      have one := find_of_no_quote (m := .one) other nofun
      have two := find_of_no_quote (m := .two) other nofun
      simpa [find, read, quote] using two.trans one.symm
    · exact find_of_no_quote (by simpa using Ne.symm quote) nofun

theorem afterTriple?_eq_find (cs : List Char) : afterTriple? cs = plain.find cs := by
  fun_induction afterTriple? cs with
  | case1 c cs ih => exact ih
  | case2 cs => rfl
  | case3 c cs unhidden apart ih =>
    rw [ih]
    by_cases backslash : c = '\\'
    · cases cs with
      | nil => simp [find, read, backslash]
      | cons d cs => exact absurd rfl (unhidden d cs backslash)
    · by_cases quote : c = '"'
      · have pair : ¬ ['"', '"'] <+: cs := by
          rintro ⟨rest, rfl⟩
          exact apart rest quote rfl
        simpa [find, read, quote] using (find_one pair).symm
      · simp [find, quote, backslash]
  | case4 => rfl

/-- Three quotes close a literal where they are met from the first one on. -/
theorem find_tripleQuote : m.find tripleQuote = some [] ↔ m = .plain := by
  cases m <;> decide

/-- A character that begins no three quotes can be read. -/
theorem Allows.read (allowed : m.Allows (c :: cs)) (apart : ¬ tripleQuote <+: c :: cs) :
    ∃ next, m.read c = some next ∧ next.Allows cs := by
  by_cases quote : c = '"'
  · subst quote
    cases m with
    | plain => exact ⟨.one, rfl, by simpa [Allows, tripleQuote] using apart⟩
    | one => exact ⟨.two, rfl, by simpa [Allows] using allowed⟩
    | two => simp [Allows] at allowed
    | hidden => exact ⟨.plain, rfl, trivial⟩
  · by_cases backslash : c = '\\'
    · subst backslash
      refine ⟨_, m.read_backslash, ?_⟩
      split <;> trivial
    · exact ⟨.plain, read_of_ne quote backslash, trivial⟩

end Mark

section Escaping

variable {m : Mark} {c : Char} {cs : List Char}

theorem tripleQuote_not_first (apart : ∀ rest, c = '"' → cs = '"' :: '"' :: rest → False) :
    ¬ tripleQuote <+: c :: cs := by
  rintro ⟨rest, same⟩
  cases same
  exact apart rest rfl rfl

theorem escapeTriples_cons (apart : ¬ tripleQuote <+: c :: cs) : escapeTriples (c :: cs) = c :: escapeTriples cs := by
  rw [escapeTriples]
  rintro rest rfl rfl
  exact apart ⟨rest, rfl⟩

/-- Nothing is kept of what was read before three escaped quotes. -/
theorem Mark.readAll_escaped (m : Mark) (cs : List Char) :
    m.readAll ('\\' :: '"' :: '\\' :: '"' :: '\\' :: '"' :: cs) = Mark.plain.readAll cs := by
  cases m with
  | plain | one | two | hidden => rfl

/-- An escaped text can be read to its end. -/
theorem exists_readAll_escapeTriples (cs : List Char) (allowed : m.Allows cs) :
    ∃ last, m.readAll (escapeTriples cs) = some last := by
  fun_induction escapeTriples cs generalizing m with
  | case1 cs ih =>
    obtain ⟨last, later⟩ := @ih .plain trivial
    exact ⟨last, (m.readAll_escaped _).trans later⟩
  | case2 c cs apart ih =>
    obtain ⟨next, here, allows⟩ := allowed.read (tripleQuote_not_first apart)
    obtain ⟨last, later⟩ := ih allows
    exact ⟨last, by rw [Mark.readAll_cons, here]; exact later⟩
  | case3 => exact ⟨m, rfl⟩

/-- What begins with another character than a quote is escaped on its own. -/
theorem escapeTriples_append (quote : c ≠ '"') (before after : List Char) :
    escapeTriples (before ++ c :: after) = escapeTriples before ++ c :: escapeTriples after := by
  fun_induction escapeTriples before with
  | case1 cs ih => simpa [escapeTriples] using ih
  | case2 d cs apart ih =>
    have still : ¬ tripleQuote <+: d :: (cs ++ c :: after) := by
      rintro ⟨rest, same⟩
      rcases cs with _ | ⟨e, _ | ⟨f, cs⟩⟩ <;> cases same
      · contradiction
      · contradiction
      · exact apart cs rfl rfl
    rw [List.cons_append, escapeTriples_cons still, ih, List.cons_append]
  | case3 => exact escapeTriples_cons (by simp [tripleQuote, Ne.symm quote])

theorem getLast?_escapeTriples (cs : List Char) : (escapeTriples cs).getLast? = cs.getLast? := by
  fun_induction escapeTriples cs with
  | case1 cs ih => simp [List.getLast?_cons, ih]
  | case2 c cs apart ih => simp [List.getLast?_cons, ih]
  | case3 => rfl

end Escaping

/-- The quotes that a text ends in. -/
def closingQuotes (cs : List Char) : Nat := (cs.rtakeWhile (· = '"')).length

/-- The backslashes right before the quotes that a text ends in. -/
def backslashesBefore (cs : List Char) : Nat := ((cs.rdropWhile (· = '"')).rtakeWhile (· = '\\')).length

/-- Nothing at the end of a text meets the quotes behind it. Where there is no quote, no backslash hides what
follows; a single quote is hidden by a backslash itself; of more quotes than that, all are escaped. -/
def Settled (cs : List Char) : Prop :=
  closingQuotes cs = 0 ∧ backslashesBefore cs % 2 = 0 ∨
    closingQuotes cs = 1 ∧ backslashesBefore cs % 2 = 1 ∨
    2 ≤ closingQuotes cs ∧ closingQuotes cs % 3 = 0

instance (cs : List Char) : Decidable (Settled cs) := inferInstanceAs (Decidable (_ ∧ _ ∨ _ ∧ _ ∨ _ ∧ _))

section Ending

variable {cs : List Char} {m : Mark}

theorem readAll_concat {before : List Char} {c : Char} (read : Mark.plain.readAll (before ++ [c]) = some m) :
    ∃ m', Mark.plain.readAll before = some m' ∧ m'.read c = some m := by
  rw [Mark.readAll_append] at read
  obtain ⟨m', first, here⟩ := Option.bind_eq_some_iff.mp read
  exact ⟨m', first, m'.readAll_singleton c ▸ here⟩

/-- The next character is hidden if it stands behind an odd number of backslashes. -/
theorem hidden_iff (read : Mark.plain.readAll (escapeTriples cs) = some m) :
    m = .hidden ↔ (cs.rtakeWhile (· = '\\')).length % 2 = 1 := by
  induction cs using List.reverseRecOn generalizing m with
  | nil =>
    cases read
    decide
  | append_singleton cs c ih =>
    by_cases quote : c = '"'
    · have last : '"' ∈ (escapeTriples (cs ++ [c])).getLast? := by
        rw [getLast?_escapeTriples, quote, List.getLast?_concat]
        rfl
      obtain ⟨before, ends⟩ := List.getLast?_eq_some_iff.mp last
      rw [ends] at read
      obtain ⟨m', first, here⟩ := readAll_concat read
      rw [quote, List.rtakeWhile_concat_neg _ _ _ (by decide)]
      cases m' <;> cases here <;> decide
    · rw [escapeTriples_append quote] at read
      obtain ⟨m', first, here⟩ := readAll_concat read
      have before := ih first
      by_cases backslash : c = '\\'
      · rw [backslash, Mark.read_backslash] at here
        cases here
        rw [backslash, List.rtakeWhile_concat_pos _ _ _ (by decide), List.length_append, List.length_singleton]
        split
        · next covered =>
          have odd := before.mp covered
          simp only [reduceCtorEq, false_iff]
          omega
        · next seen =>
          have even := mt before.mpr seen
          simp only [true_iff]
          omega
      · rw [Mark.read_of_ne quote backslash] at here
        cases here
        rw [List.rtakeWhile_concat_neg _ _ _ (by simpa using backslash)]
        decide

theorem readAll_three_quotes (m : Mark) (n : Nat) :
    m.readAll (escapeTriples (List.replicate (n + 3) '"')) =
      Mark.plain.readAll (escapeTriples (List.replicate n '"')) :=
  m.readAll_escaped _

theorem plain_readAll_quotes (n : Nat) :
    Mark.plain.readAll (escapeTriples (List.replicate n '"')) = some .plain ↔ n % 3 = 0 := by
  induction n using Nat.strong_induction_on with
  | h n ih =>
    match n with
    | 0 | 1 | 2 => decide
    | n + 3 =>
      rw [readAll_three_quotes, ih n (by omega)]
      omega

theorem hidden_readAll_quotes (n : Nat) :
    Mark.hidden.readAll (escapeTriples (List.replicate n '"')) = some .plain ↔ n = 1 ∨ (0 < n ∧ n % 3 = 0) := by
  match n with
  | 0 | 1 | 2 => decide
  | n + 3 =>
    rw [readAll_three_quotes, plain_readAll_quotes]
    omega

theorem rdropWhile_quotes (cs : List Char) :
    cs.rdropWhile (· = '"') = [] ∨ ∃ before c, cs.rdropWhile (· = '"') = before ++ [c] ∧ c ≠ '"' := by
  rcases List.eq_nil_or_concat' (cs.rdropWhile (· = '"')) with empty | ⟨before, c, ends⟩
  · exact .inl empty
  · have last := List.rdropWhile_last_not (· = '"') cs (by simp [ends])
    exact .inr ⟨before, c, ends, by simpa [ends] using last⟩

/-- The quotes at the end of a text are escaped for themselves. -/
theorem escapeTriples_split (cs : List Char) :
    escapeTriples cs =
      escapeTriples (cs.rdropWhile (· = '"')) ++ escapeTriples (List.replicate (closingQuotes cs) '"') := by
  have quotes : cs.rtakeWhile (· = '"') = List.replicate (closingQuotes cs) '"' :=
    List.eq_replicate_iff.mpr ⟨rfl, fun c member => by simpa using List.mem_rtakeWhile_imp member⟩
  have whole : cs.rdropWhile (· = '"') ++ List.replicate (closingQuotes cs) '"' = cs := by
    rw [← quotes, List.rdropWhile_append_rtakeWhile]
  rw [← congrArg escapeTriples whole]
  rcases rdropWhile_quotes cs with empty | ⟨before, c, ends, quote⟩
  · rw [empty]
    rfl
  · simp only [ends, List.append_assoc, List.singleton_append, escapeTriples_append quote]
    rfl

/-- What was read last before those quotes is no quote. -/
theorem plain_or_hidden (read : Mark.plain.readAll (escapeTriples (cs.rdropWhile (· = '"'))) = some m) :
    m = .plain ∨ m = .hidden := by
  rcases rdropWhile_quotes cs with empty | ⟨before, c, ends, quote⟩
  · rw [empty] at read
    cases read
    exact .inl rfl
  · rw [ends, escapeTriples_append quote] at read
    obtain ⟨m', _, here⟩ := readAll_concat read
    by_cases backslash : c = '\\'
    · rw [backslash, Mark.read_backslash] at here
      cases here
      exact ite_eq_or_eq ..
    · rw [Mark.read_of_ne quote backslash] at here
      cases here
      exact .inl rfl

theorem settled_iff (read : Mark.plain.readAll (escapeTriples cs) = some m) : m = .plain ↔ Settled cs := by
  rw [escapeTriples_split, Mark.readAll_append] at read
  obtain ⟨before, first, later⟩ := Option.bind_eq_some_iff.mp read
  have parity : before = .hidden ↔ backslashesBefore cs % 2 = 1 := hidden_iff first
  have same : m = .plain ↔ before.readAll (escapeTriples (List.replicate (closingQuotes cs) '"')) = some .plain := by
    rw [later, Option.some_inj]
  rw [same, Settled]
  rcases plain_or_hidden first with rfl | rfl
  · rw [plain_readAll_quotes]
    simp only [reduceCtorEq, false_iff] at parity
    omega
  · rw [hidden_readAll_quotes]
    have odd := parity.mp rfl
    omega

end Ending
theorem lineFeed_prefix_escapeTriples {cs : List Char} (first : ['\n'] <+: escapeTriples cs) : ['\n'] <+: cs := by
  obtain ⟨rest, same⟩ := first
  fun_cases escapeTriples cs with
  | case1 cs => simp [escapeTriples] at same
  | case2 c cs apart =>
    rw [escapeTriples_cons (tripleQuote_not_first apart)] at same
    cases same
    exact ⟨cs, rfl⟩
  | case3 => contradiction

/-- Escaping does nothing beyond the lines of a text. -/
theorem lines_escapeTriples (cs : List Char) :
    Text.lines (escapeTriples cs) = (Text.lines cs).map escapeTriples := by
  fun_induction escapeTriples cs with
  | case1 cs ih =>
    have quote : Text.isLineBreak '"' = false := by decide
    have backslash : Text.isLineBreak '\\' = false := by decide
    simp only [Text.lines_cons quote, Text.lines_cons backslash, ih]
    cases Text.lines cs with
    | nil => rfl
    | cons l ls => rfl
  | case2 c cs apart ih =>
    have apart := tripleQuote_not_first apart
    cases ends : Text.isLineBreak c with
    | false =>
      rw [Text.lines_cons ends, Text.lines_cons ends, ih]
      cases divided : Text.lines cs with
      | nil =>
        have alone : escapeTriples [c] = [c] := escapeTriples_cons (by simp [tripleQuote])
        simp [alone]
      | cons l ls =>
        have short : ¬ tripleQuote <+: c :: l := fun first =>
          apart (first.trans ((List.prefix_cons_inj c).mpr (Text.prefix_of_lines divided)))
        simp [escapeTriples_cons short]
    | true =>
      by_cases pair : c = '\r' ∧ ['\n'] <+: cs
      · obtain ⟨rfl, rest, rfl⟩ := pair
        have feed : escapeTriples ('\n' :: rest) = '\n' :: escapeTriples rest :=
          escapeTriples_cons (by simp [tripleQuote])
        rw [List.singleton_append] at ih ⊢
        rw [feed] at ih ⊢
        exact (Text.lines_pair _).trans (ih.trans (congrArg _ (Text.lines_pair rest).symm))
      · have single : c = '\r' → ¬ ['\n'] <+: cs := fun carriage first => pair ⟨carriage, first⟩
        have still : c = '\r' → ¬ ['\n'] <+: escapeTriples cs := fun carriage first =>
          single carriage (lineFeed_prefix_escapeTriples first)
        rw [Text.lines_break ends single, Text.lines_break ends still, ih]
        rfl
  | case3 => rfl

theorem readAll_ended {ls : List (List Char)} (readable : ∀ l ∈ ls, ∃ m, Mark.plain.readAll l = some m) :
    Mark.plain.readAll (Text.ended (ls.map String.ofList)).toList = some .plain := by
  induction ls with
  | nil => rfl
  | cons l ls ih =>
    obtain ⟨⟨m, first⟩, later⟩ := List.forall_mem_cons.mp readable
    have spelled : (Text.ended ((l :: ls).map String.ofList)).toList =
        l ++ '\n' :: (Text.ended (ls.map String.ofList)).toList := by simp
    rw [spelled, Mark.readAll_append, first, Option.bind_some, Mark.readAll_cons,
      Mark.read_of_ne (by decide) (by decide)]
    exact ih later

/-- The first line is followed by others, and these by nothing but the indentation. -/
theorem afterTriple?_ended {margin : List Char} (spaces : ∀ c ∈ margin, c = ' ') {ls : List (List Char)}
    (readable : ∀ l ∈ ls, ∃ m, Mark.plain.readAll l = some m) :
    afterTriple? ((Text.ended (ls.map String.ofList)).toList ++ (margin ++ tripleQuote)) = some [] := by
  rw [Mark.afterTriple?_eq_find, Mark.find_append (readAll_ended readable),
    Mark.find_append (Mark.readAll_spaces spaces)]
  exact Mark.find_tripleQuote.mpr rfl

theorem afterTriple?_line (l : List Char) : afterTriple? (escapeTriples l ++ tripleQuote) = some [] ↔ Settled l := by
  obtain ⟨m, read⟩ := exists_readAll_escapeTriples (m := .plain) l trivial
  rw [Mark.afterTriple?_eq_find, Mark.find_append read, Mark.find_tripleQuote, settled_iff read]

theorem joinLines_literal (margin first : List Char) (further : List (List Char)) :
    (Text.joinLines
        (((margin ++ tripleQuote ++ first) :: further ++ [margin ++ tripleQuote]).map String.ofList)).toList =
      margin ++ tripleQuote ++
        ((Text.ended ((first :: further).map String.ofList)).toList ++ (margin ++ tripleQuote)) := by
  rw [List.map_append, List.map_singleton, Text.joinLines_concat]
  simp

/-- The lines behind the first one, each of them blank or behind the indentation. -/
theorem readable_indented {margin : List Char} (spaces : ∀ c ∈ margin, c = ' ') (ls : List (List Char)) :
    ∀ l ∈ (ls.map escapeTriples).map fun l => if l.isEmpty then [] else margin ++ l,
      ∃ m, Mark.plain.readAll l = some m := by
  intro l member
  rw [List.map_map] at member
  obtain ⟨k, -, rfl⟩ := List.mem_map.mp member
  dsimp only [Function.comp_apply]
  split
  · exact ⟨.plain, rfl⟩
  · rw [Mark.readAll_append, Mark.readAll_spaces spaces]
    exact exists_readAll_escapeTriples _ trivial

/-- The literal of a text is whole unless the text is a single line whose end meets the quotes behind it. -/
theorem literal_whole_iff {indent doc : String} (spaces : ∀ c ∈ indent.toList, c = ' ') (content : doc ≠ "") :
    ∃ lines body, literal indent doc = .ok lines ∧
      (Text.joinLines lines).toList = indent.toList ++ tripleQuote ++ body ∧
      (afterTriple? body = some [] ↔ ∀ l, Text.lines doc.toList = [l] → Settled l) := by
  have escaped := lines_escapeTriples doc.toList
  cases divided : Text.lines doc.toList with
  | nil => exact absurd (String.toList_eq_nil_iff.mp (Text.lines_eq_nil_iff.mp divided)) content
  | cons first others =>
    rw [divided] at escaped
    cases others with
    | nil =>
      refine ⟨_, escapeTriples first ++ tripleQuote, by rw [literal, literalLines, escaped]; rfl, ?_, ?_⟩
      · simp [Text.joinLines]
      · rw [afterTriple?_line]
        simp
    | cons second rest =>
      refine ⟨_, _, by rw [literal, literalLines, escaped]; rfl, joinLines_literal .., ?_⟩
      have whole := afterTriple?_ended spaces (List.forall_mem_cons.mpr
        ⟨exists_readAll_escapeTriples first trivial, readable_indented spaces (second :: rest)⟩)
      exact ⟨fun _ l single => by simp at single, fun _ => whole⟩

theorem remark_literal_whole :
    (∀ c ∈ "    ".toList, c = ' ') ∧ "Say \"hi\" twice." ≠ "" ∧
      ∃ lines body, literal "    " "Say \"hi\" twice." = .ok lines ∧
        (Text.joinLines lines).toList = "    ".toList ++ tripleQuote ++ body ∧ afterTriple? body = some [] := by
  have spaces : ∀ c ∈ "    ".toList, c = ' ' := by simp
  have content : "Say \"hi\" twice." ≠ "" := by decide
  obtain ⟨lines, body, made, spelled, whole⟩ := literal_whole_iff spaces content
  have settled : ∀ l, Text.lines "Say \"hi\" twice.".toList = [l] → Settled l := by
    rintro l ⟨⟩
    decide
  exact ⟨spaces, content, lines, body, made, spelled, whole.mpr settled⟩

/-- A quote at the end of a single line meets the quotes that should close the literal. -/
theorem quoted_end_unclosed :
    ∃ body, literal "    " "Say \"hi\"" = .ok [String.ofList ("    ".toList ++ tripleQuote ++ body)] ∧
      afterTriple? body = some ['"'] :=
  ⟨"Say \"hi\"\"\"\"".toList, rfl, by decide⟩

end SyncFacade.Docstring
