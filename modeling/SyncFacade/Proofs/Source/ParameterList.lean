import SyncFacade.Text.Blank
import SyncFacade.Proofs.Forwarding.Binding
import SyncFacade.Proofs.Text.Brackets
import SyncFacade.Proofs.Text.Pieces

/-! The notation of parameter lists. A list is divided at the commas outside of brackets. The kind of a parameter is
not written with it: it depends on the separators around, which the reader follows. No list is read that has a
separator without need. -/
namespace SyncFacade

namespace Text

/-- A character that can stand in an identifier. Beyond ASCII, more is taken for one than there are. -/
def isIdentifierChar (c : Char) : Bool := !isBlank c && (c.isAlphanum || c = '_' || 0x7f < c.toNat)

def isIdentifier (cs : List Char) : Bool := !cs.isEmpty && cs.all isIdentifierChar

variable {c d : Char} {cs : List Char}

theorem isBlank_of_isIdentifierChar (allowed : isIdentifierChar c = true) : isBlank c = false := by
  simpa using (Bool.and_eq_true_iff.mp allowed).1

theorem ne_of_isIdentifierChar (allowed : isIdentifierChar c = true) (mark : isIdentifierChar d = false) : c ≠ d := by
  rintro rfl
  rw [mark] at allowed
  contradiction

theorem isBracket_of_isIdentifierChar (allowed : isIdentifierChar c = true) : isBracket c = false := by
  have other : ∀ d, isIdentifierChar d = false → c ≠ d := fun d => ne_of_isIdentifierChar allowed
  simp [isBracket, closing?, isClosing, other '(' rfl, other '[' rfl, other '{' rfl, other ')' rfl, other ']' rfl,
    other '}' rfl]

theorem isQuote_of_isIdentifierChar (allowed : isIdentifierChar c = true) : isQuote c = false := by
  have single : c ≠ '\'' := ne_of_isIdentifierChar allowed rfl
  have double : c ≠ '"' := ne_of_isIdentifierChar allowed rfl
  simp [isQuote, single, double]

theorem not_mem_of_isIdentifier (name : isIdentifier cs = true) (mark : isIdentifierChar d = false) : d ∉ cs := by
  intro member
  have allowed := List.all_eq_true.mp (Bool.and_eq_true_iff.mp name).2 d member
  exact ne_of_isIdentifierChar allowed mark rfl

theorem exists_cons_of_isIdentifier (name : isIdentifier cs = true) :
    ∃ c rest, cs = c :: rest ∧ isIdentifierChar c = true := by
  cases cs with
  | nil => contradiction
  | cons c rest =>
    simp only [isIdentifier, List.all_cons, Bool.and_eq_true] at name
    exact ⟨c, rest, rfl, name.2.1⟩

/-- A text that consists of names and dots. -/
def Dotted (cs : List Char) : Prop := ∀ c ∈ cs, isIdentifierChar c = true ∨ c = '.'

instance (cs : List Char) : Decidable (Dotted cs) := List.decidableBAll _ _

/-- A text without the marks of a parameter list. -/
def Unmarked (cs : List Char) : Prop := ∀ c ∈ cs, c ≠ ',' ∧ isBracket c = false ∧ c ≠ ':' ∧ c ≠ '='

instance (cs : List Char) : Decidable (Unmarked cs) := List.decidableBAll _ _

theorem Dotted.enclosed (dotted : Dotted cs) (quotes : Bool) : Enclosed quotes cs := by
  refine .of_plain fun c member => ?_
  rcases dotted c member with allowed | rfl
  · have comma : c ≠ ',' := ne_of_isIdentifierChar allowed rfl
    simp [comma, isBracket_of_isIdentifierChar allowed, isQuote_of_isIdentifierChar allowed]
  · cases quotes <;> decide

end Text

/-- What is written for one parameter, without the marks in front. -/
structure Binding where
  name : String
  annotation : Option String
  default : Option String
deriving DecidableEq

/-- What stands between two commas. -/
inductive ListItem where
  | slash
  | star
  | single (b : Binding)
  | sequence (b : Binding)
  | mapping (b : Binding)
deriving DecidableEq

structure Declaration extends Binding where
  kind : ParameterKind
deriving DecidableEq

namespace ParameterKind

variable {k l : ParameterKind}

theorem not_mayPrecede_of_extraKeyword : ¬ extraKeyword.MayPrecede l := by
  cases l <;> decide

theorem late_of_mayPrecede (before : k.MayPrecede l) (late : 2 ≤ k.rank) : 3 ≤ l.rank := by
  revert before late
  cases k <;> cases l <;> decide

theorem positionalOnly_of_mayPrecede (before : k.MayPrecede .positionalOnly) : k = .positionalOnly := by
  revert before
  cases k <;> decide

end ParameterKind

namespace Binding

def text (b : Binding) : String :=
  b.name ++ (match b.annotation with | some t => ": " ++ t | none => "") ++
    (match b.default with | some d => " = " ++ d | none => "")

def cutDefault? (cs : List Char) : Option (List Char × Option String) :=
  match Text.pieces '=' cs with
  | [front] => some (front, none)
  | [front, ' ' :: d] => if front.getLast? = some ' ' then some (front.dropLast, some (String.ofList d)) else none
  | _ => none

def cutAnnotation? (cs : List Char) : Option (List Char × Option String) :=
  match Text.pieces ':' cs with
  | [name] => some (name, none)
  | [name, ' ' :: t] => some (name, some (String.ofList t))
  | _ => none

def read? (cs : List Char) : Option Binding := do
  let (front, default) ← cutDefault? cs
  let (name, annotation) ← cutAnnotation? front
  if Text.isIdentifier name then some ⟨String.ofList name, annotation, default⟩ else none

variable {front d name t : List Char}

theorem cutDefault?_none (free : '=' ∉ front) : cutDefault? front = some (front, none) := by
  simp only [cutDefault?, Text.pieces_of_not_mem free]

theorem cutDefault?_some (free : '=' ∉ front) (plain : '=' ∉ d) :
    cutDefault? (front ++ [' ', '=', ' '] ++ d) = some (front, some (String.ofList d)) := by
  have two : Text.pieces '=' (front ++ [' ', '=', ' '] ++ d) = [front ++ [' '], ' ' :: d] := by
    have spelled : front ++ [' ', '=', ' '] ++ d = (front ++ [' ']) ++ '=' :: ' ' :: d := by simp
    rw [spelled, Text.pieces_append_of_not_mem (by simp [free]), Text.pieces_of_not_mem (by simp [plain])]
  rw [cutDefault?, two]
  simp

theorem cutAnnotation?_none (free : ':' ∉ name) : cutAnnotation? name = some (name, none) := by
  simp only [cutAnnotation?, Text.pieces_of_not_mem free]

theorem cutAnnotation?_some (free : ':' ∉ name) (plain : ':' ∉ t) :
    cutAnnotation? (name ++ [':', ' '] ++ t) = some (name, some (String.ofList t)) := by
  have two : Text.pieces ':' (name ++ [':', ' '] ++ t) = [name, ' ' :: t] := by
    have spelled : name ++ [':', ' '] ++ t = name ++ ':' :: ' ' :: t := by simp
    rw [spelled, Text.pieces_append_of_not_mem free, Text.pieces_of_not_mem (by simp [plain])]
  simp only [cutAnnotation?, two]

/-- The parts of a binding can be told apart. -/
structure Plain (b : Binding) : Prop where
  name : Text.isIdentifier b.name.toList = true
  annotation : ∀ t ∈ b.annotation, '=' ∉ t.toList ∧ ':' ∉ t.toList
  default : ∀ d ∈ b.default, '=' ∉ d.toList

theorem read?_text {b : Binding} (plain : b.Plain) : read? b.text.toList = some b := by
  obtain ⟨name, annotation, default⟩ := b
  have equals : '=' ∉ name.toList := Text.not_mem_of_isIdentifier plain.name rfl
  have colon : ':' ∉ name.toList := Text.not_mem_of_isIdentifier plain.name rfl
  -- the annotation first, since the default stands behind it
  obtain ⟨front, spelled, free, annotated⟩ : ∃ front : List Char,
      (text ⟨name, annotation, none⟩).toList = front ∧ '=' ∉ front ∧
        cutAnnotation? front = some (name.toList, annotation) := by
    cases annotation with
    | none => exact ⟨name.toList, by simp [text], equals, cutAnnotation?_none colon⟩
    | some t =>
      obtain ⟨noEquals, noColon⟩ := plain.annotation t rfl
      refine ⟨name.toList ++ [':', ' '] ++ t.toList, by simp [text], by simp [equals, noEquals], ?_⟩
      rw [cutAnnotation?_some colon noColon, String.ofList_toList]
  have cut : cutDefault? (text ⟨name, annotation, default⟩).toList = some (front, default) := by
    cases default with
    | none => rw [spelled, cutDefault?_none free]
    | some d =>
      have behind : (text ⟨name, annotation, some d⟩).toList = front ++ [' ', '=', ' '] ++ d.toList := by
        rw [← spelled]
        simp [text]
      rw [behind, cutDefault?_some free (plain.default d rfl), String.ofList_toList]
  simp [read?, cut, annotated, plain.name]

end Binding

namespace ListItem

def read? (part : String) : Option ListItem :=
  match part.toList with
  | ['/'] => some .slash
  | ['*'] => some .star
  | '*' :: '*' :: cs => (Binding.read? cs).map .mapping
  | '*' :: cs => (Binding.read? cs).map .sequence
  | cs => (Binding.read? cs).map .single

/-- The item that declares a parameter of a kind. -/
def ofKind : ParameterKind → Binding → ListItem
  | .extraPositional, b => .sequence b
  | .extraKeyword, b => .mapping b
  | _, b => .single b

def stars : ParameterKind → String
  | .extraPositional => "*"
  | .extraKeyword => "**"
  | _ => ""

theorem exists_cons_text {b : Binding} (name : Text.isIdentifier b.name.toList = true) :
    ∃ c cs, b.text.toList = c :: cs ∧ Text.isIdentifierChar c = true := by
  obtain ⟨c, cs, spelled, allowed⟩ := Text.exists_cons_of_isIdentifier name
  exact ⟨c, _, by simp [Binding.text, spelled]; rfl, allowed⟩

theorem read?_ofKind {b : Binding} (plain : b.Plain) (kind : ParameterKind) :
    read? (stars kind ++ b.text) = some (ofKind kind b) := by
  obtain ⟨c, cs, spelled, allowed⟩ := exists_cons_text plain.name
  have noStar : c ≠ '*' := Text.ne_of_isIdentifierChar allowed rfl
  have noSlash : c ≠ '/' := Text.ne_of_isIdentifierChar allowed rfl
  have binding : Binding.read? (c :: cs) = some b := by rw [← spelled, Binding.read?_text plain]
  cases kind <;> simp [read?, stars, ofKind, spelled, noStar, noSlash, binding]

theorem read?_eq_slash {part : String} : read? part = some .slash ↔ part = "/" := by
  constructor
  · intro read
    apply String.toList_injective
    unfold read? at read
    split at read <;> simp_all
  · rintro rfl
    rfl

theorem read?_eq_star {part : String} : read? part = some .star ↔ part = "*" := by
  constructor
  · intro read
    apply String.toList_injective
    unfold read? at read
    split at read <;> simp_all
  · rintro rfl
    rfl

theorem mapM_cons {part : String} {first : ListItem} (here : read? part = some first) {parts : List String}
    {later : List ListItem} (read : parts.mapM read? = some later) :
    (part :: parts).mapM read? = some (first :: later) := by
  rw [List.mapM_cons, here, read]
  rfl

end ListItem

namespace Declaration

/-- Read what stands behind a star: parameters that take their values by keyword. -/
def readKeywords : List ListItem → Option (List Declaration)
  | [] => some []
  | .single b :: rest => (readKeywords rest).map (⟨b, .keywordOnly⟩ :: ·)
  | [.mapping b] => some [⟨b, .extraKeyword⟩]
  | _ => none

/-- Read what stands behind a slash, or all if there is none. A star of its own needs a parameter behind it. -/
def readNamed : List ListItem → Option (List Declaration)
  | [] => some []
  | .single b :: rest => (readNamed rest).map (⟨b, .positionalOrKeyword⟩ :: ·)
  | .sequence b :: rest => (readKeywords rest).map (⟨b, .extraPositional⟩ :: ·)
  | .star :: .single b :: rest => readKeywords (.single b :: rest)
  | [.mapping b] => some [⟨b, .extraKeyword⟩]
  | _ => none

/-- Read on before a slash. -/
def readPositional : List ListItem → Option (List Declaration)
  | .single b :: rest => (readPositional rest).map (⟨b, .positionalOnly⟩ :: ·)
  | .slash :: rest => readNamed rest
  | _ => none

/-- Read a parameter list. A slash needs a parameter before it. -/
def readItems : List ListItem → Option (List Declaration)
  | .single b :: rest =>
    if .slash ∈ rest then (readPositional rest).map (⟨b, .positionalOnly⟩ :: ·) else readNamed (.single b :: rest)
  | items => readNamed items

/-- The parts of a parameter list. -/
def parts? (text : String) : Option (List String) :=
  if text = "" then some []
  else match Text.outerPieces false [] text.toList with
    | (pieces, []) => some (pieces.map fun piece => String.ofList (Text.trimLeft piece))
    | _ => none

/-- The declarations that the parts of a list make. -/
def readParts? (parts : List String) : Option (List Declaration) := (parts.mapM ListItem.read?).bind readItems

example : (parts? "a, /, b: M[k, v], *, c = 1, **d").bind readParts? = some
    [⟨⟨"a", none, none⟩, .positionalOnly⟩, ⟨⟨"b", some "M[k, v]", none⟩, .positionalOrKeyword⟩,
      ⟨⟨"c", none, some "1"⟩, .keywordOnly⟩, ⟨⟨"d", none, none⟩, .extraKeyword⟩] := by decide

section Separators

variable {items : List ListItem} {ds : List Declaration}

/-- A star of its own stands at most once, and only before parameters that no other star sets off. -/
def StarNeeded (items : List ListItem) (ds : List Declaration) : Prop :=
  items.count .star ≤ 1 ∧
    (.star ∈ items → (∃ d ∈ ds, d.kind = .keywordOnly) ∧ ∀ d ∈ ds, d.kind ≠ .extraPositional)

theorem readKeywords_separators (read : readKeywords items = some ds) :
    .slash ∉ items ∧ .star ∉ items ∧ ∀ d ∈ ds, d.kind ≠ .extraPositional := by
  fun_induction readKeywords items generalizing ds with
  | case1 => cases read; simp
  | case2 b rest ih =>
    obtain ⟨later, readLater, rfl⟩ := Option.map_eq_some_iff.mp read
    simpa using ih readLater
  | case3 b => cases read; simp
  | case4 => contradiction

theorem readNamed_separators (read : readNamed items = some ds) : .slash ∉ items ∧ StarNeeded items ds := by
  fun_induction readNamed items generalizing ds with
  | case1 => cases read; simp [StarNeeded]
  | case2 b rest ih =>
    obtain ⟨later, readLater, rfl⟩ := Option.map_eq_some_iff.mp read
    simpa [StarNeeded] using ih readLater
  | case3 b rest =>
    obtain ⟨later, readLater, rfl⟩ := Option.map_eq_some_iff.mp read
    obtain ⟨slash, star, -⟩ := readKeywords_separators readLater
    simp [StarNeeded, List.count_eq_zero_of_not_mem star, slash, star]
  | case4 b rest =>
    obtain ⟨slash, star, kinds⟩ := readKeywords_separators read
    obtain ⟨later, readLater, rfl⟩ := Option.map_eq_some_iff.mp read
    refine ⟨by simpa using slash, ?_, fun _ => ⟨⟨_, List.mem_cons_self, rfl⟩, kinds⟩⟩
    simp [List.count_eq_zero_of_not_mem star]
  | case5 b => cases read; simp [StarNeeded]
  | case6 => contradiction

theorem readItems_eq_readNamed (read : readNamed items = some ds) : readItems items = readNamed items := by
  have slash := (readNamed_separators read).1
  unfold readItems
  split
  · exact if_neg fun later => slash (List.mem_cons_of_mem _ later)
  · rfl

theorem readPositional_separators (read : readPositional items = some ds) :
    items.count .slash = 1 ∧ StarNeeded items ds := by
  fun_induction readPositional items generalizing ds with
  | case1 b rest ih =>
    obtain ⟨later, readLater, rfl⟩ := Option.map_eq_some_iff.mp read
    simpa [StarNeeded] using ih readLater
  | case2 rest =>
    obtain ⟨slash, star⟩ := readNamed_separators read
    simpa [StarNeeded, List.count_eq_zero_of_not_mem slash] using star
  | case3 => contradiction

theorem readItems_separators (read : readItems items = some ds) :
    items.count .slash ≤ 1 ∧ StarNeeded items ds := by
  have named : readNamed items = some ds → items.count .slash ≤ 1 ∧ StarNeeded items ds := fun readNamed =>
    (readNamed_separators readNamed).imp_left fun slash => by simp [List.count_eq_zero_of_not_mem slash]
  unfold readItems at read
  split at read
  · split at read
    · obtain ⟨later, readLater, rfl⟩ := Option.map_eq_some_iff.mp read
      obtain ⟨slash, star⟩ := readPositional_separators readLater
      simpa [StarNeeded, slash] using star
    · exact named read
  · exact named read

theorem count_of_mapM {part : String} {item : ListItem} (same : ∀ s, ListItem.read? s = some item ↔ s = part)
    {parts : List String} (read : parts.mapM ListItem.read? = some items) : parts.count part = items.count item := by
  induction parts generalizing items with
  | nil =>
    cases read
    rfl
  | cons first rest ih =>
    rw [List.mapM_cons] at read
    obtain ⟨here, readHere, read⟩ := Option.bind_eq_some_iff.mp read
    obtain ⟨later, readLater, rest_eq⟩ := Option.bind_eq_some_iff.mp read
    cases rest_eq
    have agree : first = part ↔ here = item := by rw [← same, readHere, Option.some_inj]
    simp [List.count_cons, ih readLater, agree]

/-- No list of parts is read that has a separator without need. -/
theorem readParts?_separators {parts : List String} (read : readParts? parts = some ds) :
    parts.count "/" ≤ 1 ∧ parts.count "*" ≤ 1 ∧
      ("*" ∈ parts → (∃ d ∈ ds, d.kind = .keywordOnly) ∧ ∀ d ∈ ds, d.kind ≠ .extraPositional) := by
  obtain ⟨items, each, declares⟩ := Option.bind_eq_some_iff.mp read
  obtain ⟨slash, star, needed⟩ := readItems_separators declares
  have slashes := count_of_mapM (fun s => ListItem.read?_eq_slash) each
  have stars := count_of_mapM (fun s => ListItem.read?_eq_star) each
  refine ⟨slashes ▸ slash, stars ▸ star, fun member => needed ?_⟩
  rwa [← List.count_pos_iff, ← stars, List.count_pos_iff]

end Separators

section Parts

/-- What is written between two commas starts with no blank. -/
def Unindented (part : String) : Prop := ∃ c cs, part.toList = c :: cs ∧ Text.isBlank c = false

theorem Unindented.trimLeft {part : String} (starts : Unindented part) :
    Text.trimLeft part.toList = part.toList := by
  obtain ⟨c, cs, spelled, nonblank⟩ := starts
  rw [spelled, Text.trimLeft, List.dropWhile_cons_of_neg (by simp [nonblank])]

theorem Unindented.intercalate_ne_empty {first : String} (starts : Unindented first) (further : List String) :
    ", ".intercalate (first :: further) ≠ "" := by
  obtain ⟨c, cs, spelled, -⟩ := starts
  intro empty
  have characters := congrArg String.toList empty
  cases further <;> simp [spelled] at characters

/-- Written items are found again, whatever brackets are in them. -/
theorem parts?_intercalate {items : List String} (enclosed : ∀ part ∈ items, Text.Enclosed false part.toList)
    (starts : ∀ part ∈ items, Unindented part) : parts? (", ".intercalate items) = some items := by
  cases items with
  | nil => rfl
  | cons first further =>
    obtain ⟨startsFirst, startsLater⟩ := List.forall_mem_cons.mp starts
    have each : ∀ part ∈ first.toList :: further.map String.toList, Text.Enclosed false part := by simpa using enclosed
    have ends : Text.outerPieces false [] [] = ([[]], []) := rfl
    have pieces := Text.outerPieces_intercalate ends each
    have spelled : (", ".intercalate (first :: further)).toList =
        [',', ' '].intercalate (first.toList :: further.map String.toList) := by simp
    have trimmed : ∀ part ∈ further, String.ofList (Text.trimLeft (' ' :: part.toList)) = part := by
      intro part member
      exact (congrArg String.ofList (startsLater part member).trimLeft).trans String.ofList_toList
    rw [List.append_nil, ← spelled] at pieces
    rw [parts?, if_neg (startsFirst.intercalate_ne_empty further), pieces]
    simpa [startsFirst.trimLeft, Function.comp_def] using List.map_congr_left trimmed

end Parts

end Declaration

end SyncFacade
