import SyncFacade.Source.Parameters
import SyncFacade.Text.Blank
import SyncFacade.Proofs.Forwarding.Binding
import SyncFacade.Proofs.Text.Pieces

/-! The arguments of a call as they are written, and what they give in an environment. Reading takes
back what writing gives when names have no mark of the notation in them, as no identifier has. -/
namespace SyncFacade

/-- One written argument: a name, a name behind a star, a keyword, or a name behind two stars. -/
inductive Argument where
  | value (name : String)
  | unpack (name : String)
  | keyword (key name : String)
  | unpackKeywords (name : String)
deriving DecidableEq

namespace Argument

def text : Argument → String
  | .value x => x
  | .unpack x => "*" ++ x
  | .keyword k x => k ++ "=" ++ x
  | .unpackKeywords x => "**" ++ x

def textOfAll (arguments : List Argument) : String := ", ".intercalate (arguments.map text)

/-- A character that can stand in a name: neither blank nor one of the marks around names. -/
def isNameChar (c : Char) : Bool := !Text.isBlank c && c ≠ ',' && c ≠ '=' && c ≠ '*'

def isName (cs : List Char) : Bool := !cs.isEmpty && cs.all isNameChar

/-- An argument without a star in front: a name, or two around an equals sign. -/
def readUnstarred? (cs : List Char) : Option Argument :=
  match Text.pieces '=' cs with
  | [x] => if isName x then some (.value (String.ofList x)) else none
  | [k, x] =>
    if isName k && isName x then some (.keyword (String.ofList k) (String.ofList x)) else none
  | _ => none

def read? : List Char → Option Argument
  | '*' :: '*' :: x => if isName x then some (.unpackKeywords (String.ofList x)) else none
  | '*' :: x => if isName x then some (.unpack (String.ofList x)) else none
  | cs => readUnstarred? cs

/-- The arguments between the parentheses of a call. -/
def readAll (text : String) : Option (List Argument) :=
  if text = "" then some []
  else (Text.pieces ',' text.toList).mapM fun piece => read? (Text.trimLeft piece)

/-- The names in an argument are names to the reader. -/
def Plain : Argument → Prop
  | .value x | .unpack x | .unpackKeywords x => isName x.toList = true
  | .keyword k x => isName k.toList = true ∧ isName x.toList = true

def isKeyword : Argument → Bool
  | .keyword _ _ | .unpackKeywords _ => true
  | _ => false

/-- No positional argument follows a keyword. -/
def Ordered (arguments : List Argument) : Prop :=
  arguments.Pairwise fun a b => a.isKeyword = true → b.isKeyword = true

/-- The argument that passes a parameter on. -/
def forwarding (p : Parameter) : Argument :=
  match p.kind with
  | .positionalOnly | .positionalOrKeyword => .value p.name
  | .extraPositional => .unpack p.name
  | .keywordOnly => .keyword p.name p.name
  | .extraKeyword => .unpackKeywords p.name

variable {V : Type}

/-- The values that an argument adds to the positional ones. A name is passed as what it holds; one
that holds a collection has to be unpacked. -/
def positionalValues (env : Environment V) : Argument → Option (List V)
  | .value x => match env.lookup x with
    | some (.value v) => some [v]
    | _ => none
  | .unpack x => match env.lookup x with
    | some (.sequence vs) => some vs
    | _ => none
  | .keyword _ _ | .unpackKeywords _ => some []

def keywordValues (env : Environment V) : Argument → Option (List (String × V))
  | .keyword k x => match env.lookup x with
    | some (.value v) => some [(k, v)]
    | _ => none
  | .unpackKeywords x => match env.lookup x with
    | some (.mapping entries) => some entries
    | _ => none
  | .value _ | .unpack _ => some []

/-- The call that arguments make. There is none when a name holds something else than the notation asks
for, or when a keyword comes twice. -/
def evaluate (env : Environment V) (arguments : List Argument) : Option (Arguments V) := do
  let positional ← arguments.mapM (positionalValues env)
  let keywords ← arguments.mapM (keywordValues env)
  if distinct : (keywords.flatten.map Prod.fst).Nodup then
    some { positional := positional.flatten, keywords := keywords.flatten, distinct }
  else none

theorem text_forwarding (p : Parameter) : (forwarding p).text = p.argument := by
  cases kind : p.kind <;> simp [forwarding, text, Parameter.argument, Parameter.markedName, kind]

theorem textOfAll_forwarding (ps : List Parameter) :
    textOfAll (ps.map forwarding) = Parameter.renderArguments ps := by
  simp only [textOfAll, Parameter.renderArguments, List.map_map]
  congr 2
  funext p
  exact text_forwarding p

theorem plain_forwarding {p : Parameter} (name : isName p.name.toList = true) :
    (forwarding p).Plain := by
  cases kind : p.kind <;> simp [forwarding, Plain, kind, name]

theorem ordered_forwarding {ps : List Parameter} (sig : Signature ps) :
    Ordered (ps.map forwarding) := by
  apply List.pairwise_map.mpr
  refine sig.ordered.imp ?_
  intro p q before keyword
  cases first : p.kind <;> cases second : q.kind <;>
    simp_all [forwarding, isKeyword, ParameterKind.MayPrecede, ParameterKind.rank,
      ParameterKind.collects]

theorem not_mem_of_isName {cs : List Char} (name : isName cs = true) {c : Char}
    (mark : isNameChar c = false) : c ∉ cs := by
  intro member
  simp only [isName, Bool.and_eq_true] at name
  have allowed := List.all_eq_true.mp name.2 c member
  rw [mark] at allowed
  contradiction

theorem exists_cons_of_isName {cs : List Char} (name : isName cs = true) :
    ∃ c rest, cs = c :: rest ∧ isNameChar c = true := by
  cases cs with
  | nil => contradiction
  | cons c rest =>
    simp only [isName, List.all_cons, Bool.and_eq_true] at name
    exact ⟨c, rest, rfl, name.2.1⟩

theorem read?_of_name_first {c : Char} (starts : isNameChar c = true) (rest : List Char) :
    read? (c :: rest) = readUnstarred? (c :: rest) := by
  have noStar : c ≠ '*' := by rintro rfl; contradiction
  unfold read?
  split <;> simp_all

theorem read?_star {x : List Char} (name : isName x = true) :
    read? ('*' :: x) = some (.unpack (String.ofList x)) := by
  obtain ⟨c, rest, rfl, starts⟩ := exists_cons_of_isName name
  have noStar : c ≠ '*' := by rintro rfl; contradiction
  unfold read?
  split <;> simp_all

theorem readUnstarred?_name {x : List Char} (name : isName x = true) :
    readUnstarred? x = some (.value (String.ofList x)) := by
  have single : Text.pieces '=' x = [x] := Text.pieces_of_not_mem (not_mem_of_isName name (by decide))
  simp only [readUnstarred?, single, name, if_true]

theorem readUnstarred?_keyword {k x : List Char} (key : isName k = true) (name : isName x = true) :
    readUnstarred? (k ++ '=' :: x) = some (.keyword (String.ofList k) (String.ofList x)) := by
  have two : Text.pieces '=' (k ++ '=' :: x) = [k, x] := by
    rw [Text.pieces_append_of_not_mem (not_mem_of_isName key (by decide)),
      Text.pieces_of_not_mem (not_mem_of_isName name (by decide))]
  simp only [readUnstarred?, two, key, name, Bool.and_self, if_true]

theorem read?_text {a : Argument} (plain : a.Plain) : read? a.text.toList = some a := by
  cases a with
  | value x =>
    obtain ⟨c, rest, spelled, starts⟩ := exists_cons_of_isName plain
    rw [text, spelled, read?_of_name_first starts, ← spelled, readUnstarred?_name plain,
      String.ofList_toList]
  | unpack x =>
    have spelled : ("*" ++ x).toList = '*' :: x.toList := by simp
    rw [text, spelled, read?_star plain, String.ofList_toList]
  | keyword k x =>
    obtain ⟨key, name⟩ := plain
    obtain ⟨c, rest, starting, starts⟩ := exists_cons_of_isName key
    have spelled : (k ++ "=" ++ x).toList = k.toList ++ '=' :: x.toList := by simp
    have first : read? (k.toList ++ '=' :: x.toList) =
        readUnstarred? (k.toList ++ '=' :: x.toList) := by
      rw [starting, List.cons_append, read?_of_name_first starts]
    rw [text, spelled, first, readUnstarred?_keyword key name, String.ofList_toList,
      String.ofList_toList]
  | unpackKeywords x =>
    have name : isName x.toList = true := plain
    simp [text, read?, name]

theorem exists_cons_text {a : Argument} (plain : a.Plain) :
    ∃ c rest, a.text.toList = c :: rest ∧ Text.isBlank c = false := by
  have starBlank : Text.isBlank '*' = false := by decide
  have ofName {x : List Char} (name : isName x = true) :
      ∃ c rest, x = c :: rest ∧ Text.isBlank c = false := by
    obtain ⟨c, rest, spelled, starts⟩ := exists_cons_of_isName name
    simp only [isNameChar, Bool.and_eq_true, Bool.not_eq_true'] at starts
    exact ⟨c, rest, spelled, starts.1.1.1⟩
  cases a with
  | value x => exact ofName plain
  | unpack x => exact ⟨'*', x.toList, by simp [text], starBlank⟩
  | keyword k x =>
    obtain ⟨c, rest, spelled, visible⟩ := ofName plain.1
    exact ⟨c, rest ++ '=' :: x.toList, by simp [text, spelled], visible⟩
  | unpackKeywords x => exact ⟨'*', '*' :: x.toList, by simp [text], starBlank⟩

theorem read?_trimLeft {a : Argument} (plain : a.Plain) {gap : List Char}
    (blank : ∀ c ∈ gap, Text.isBlank c = true) :
    read? (Text.trimLeft (gap ++ a.text.toList)) = some a := by
  obtain ⟨c, rest, spelled, visible⟩ := exists_cons_text plain
  have trimmed : Text.trimLeft (gap ++ a.text.toList) = a.text.toList := by
    rw [Text.trimLeft, List.dropWhile_append_of_pos blank, spelled,
      List.dropWhile_cons_of_neg (by simp [visible])]
  rw [trimmed, read?_text plain]

theorem comma_not_mem_text {a : Argument} (plain : a.Plain) : ',' ∉ a.text.toList := by
  have noComma {x : List Char} (name : isName x = true) : ',' ∉ x :=
    not_mem_of_isName name (by decide)
  cases a with
  | value x => exact noComma plain
  | unpack x | unpackKeywords x =>
    have free := noComma plain
    simp [text, free]
  | keyword k x =>
    have freeKey := noComma plain.1
    have freeName := noComma plain.2
    simp [text, freeKey, freeName]

/-- Written with a comma and a blank between them, arguments are read back one by one. -/
theorem readAll_textOfAll {arguments : List Argument} (plain : ∀ a ∈ arguments, a.Plain) :
    readAll (textOfAll arguments) = some arguments := by
  cases arguments with
  | nil => rfl
  | cons a rest =>
    have plainA := plain a List.mem_cons_self
    have spelled : (textOfAll (a :: rest)).toList =
        (',' :: [' ']).intercalate (a.text.toList :: rest.map (·.text.toList)) := by
      rw [textOfAll, String.toList_intercalate, List.map_cons, List.map_cons, List.map_map]
      rfl
    have split : Text.pieces ',' (textOfAll (a :: rest)).toList =
        a.text.toList :: rest.map ([' '] ++ ·.text.toList) := by
      rw [spelled, Text.pieces_intercalate (by decide), List.map_map]
      · rfl
      · intro part member
        rw [← List.map_cons (f := fun b : Argument => b.text.toList)] at member
        obtain ⟨b, among, rfl⟩ := List.mem_map.mp member
        exact comma_not_mem_text (plain b among)
    have visible : textOfAll (a :: rest) ≠ "" := by
      intro empty
      obtain ⟨c, cs, first, _⟩ := exists_cons_text plainA
      have none_left : Text.pieces ',' (textOfAll (a :: rest)).toList = [[]] := by rw [empty]; rfl
      rw [split, first] at none_left
      simp at none_left
    have head : read? (Text.trimLeft ([] ++ a.text.toList)) = some a :=
      read?_trimLeft plainA (List.forall_mem_nil _)
    have tail : rest.mapM (fun b => read? (Text.trimLeft ([' '] ++ b.text.toList))) =
        some (rest.map id) := by
      apply mapM_eq_pure
      intro b member
      have blank : ∀ c ∈ [' '], Text.isBlank c = true := List.forall_mem_singleton.mpr (by decide)
      exact read?_trimLeft (plain b (List.mem_cons_of_mem a member)) blank
    rw [List.nil_append] at head
    rw [List.map_id] at tail
    rw [readAll, if_neg visible, split, List.mapM_cons, head, List.mapM_map]
    simp only [Function.comp_def, tail, Option.bind_eq_bind, Option.bind_some, Option.pure_def]

example : readAll "a, b, *args, c=c, **kwargs" =
    some [.value "a", .value "b", .unpack "args", .keyword "c" "c", .unpackKeywords "kwargs"] := by
  cbv

end Argument
end SyncFacade
