import SyncFacade.Text.Pieces
import Mathlib.Data.List.Basic

/-! Texts with brackets in them, and the commas outside of all brackets. Where quoted texts are told apart as well, what
stands in quotes is neither bracket nor comma. A text that closes all that it opens can stand anywhere: it changes
nothing for what comes behind it. -/
namespace SyncFacade.Text

def closing? (c : Char) : Option Char :=
  if c = '(' then some ')' else if c = '[' then some ']' else if c = '{' then some '}' else none

def isClosing (c : Char) : Bool := c = ')' || c = ']' || c = '}'

def isBracket (c : Char) : Bool := (closing? c).isSome || isClosing c

def isQuote (c : Char) : Bool := c = '\'' || c = '"'

/-- Read a character outside of quoted texts. What is awaited are the ends of all that is open, innermost first. -/
def readUnquoted (quotes : Bool) (awaited : List Char) (c : Char) : Option (List Char) :=
  match closing? c with
  | some e => some (e :: awaited)
  | none =>
    if isClosing c then none
    else if quotes && isQuote c then some (c :: awaited)
    else some awaited

/-- Read a character, unless it is a bracket that closes nothing. A backslash in a quoted text hides the character
behind it; until then it is awaited itself. -/
def readNested (quotes : Bool) (awaited : List Char) (c : Char) : Option (List Char) :=
  match awaited with
  | [] => readUnquoted quotes [] c
  | e :: outer =>
    if e = '\\' || c = e then some outer
    else if isQuote e then some (if c = '\\' then '\\' :: awaited else awaited)
    else readUnquoted quotes awaited c

/-- Read a character that is no comma outside. -/
def readInside (quotes : Bool) (awaited : List Char) (c : Char) : Option (List Char) :=
  if awaited = [] ∧ c = ',' then none else readNested quotes awaited c

/-- A text closes all that it opens and nothing else, and has no comma outside. -/
def Enclosed (quotes : Bool) (cs : List Char) : Prop := cs.foldlM (readInside quotes) [] = some []

instance (quotes : Bool) (cs : List Char) : Decidable (Enclosed quotes cs) := inferInstanceAs (Decidable (_ = _))

/-- The pieces between the commas outside, up to a bracket that closes nothing, and what stands from there on. -/
def outerPieces (quotes : Bool) : (awaited : List Char) → List Char → List (List Char) × List Char
  | _, [] => ([[]], [])
  | awaited, c :: cs =>
    if awaited = [] ∧ c = ',' then
      let (later, rest) := outerPieces quotes [] cs
      ([] :: later, rest)
    else match readNested quotes awaited c with
      | none => ([[]], c :: cs)
      | some awaited =>
        let (later, rest) := outerPieces quotes awaited cs
        (later.modifyHead (c :: ·), rest)

example : outerPieces true [] "a, b: X[c, d] = ', ') -> T".toList =
    (["a".toList, " b: X[c, d] = ', '".toList], ") -> T".toList) := by decide

/-- What is open last is a bracket, or nothing is open. -/
def InBrackets (awaited : List Char) : Prop := ∀ e ∈ awaited.head?, isClosing e = true

variable {quotes : Bool} {awaited awaited' outer cs : List Char} {c : Char}

theorem isClosing_iff : isClosing c = true ↔ c = ')' ∨ c = ']' ∨ c = '}' := by
  simp [isClosing, or_assoc]

theorem readUnquoted_append (read : readUnquoted quotes awaited c = some awaited') (outer : List Char) :
    readUnquoted quotes (awaited ++ outer) c = some (awaited' ++ outer) := by
  unfold readUnquoted at read ⊢
  split at read
  · cases read
    rfl
  · split at read
    · contradiction
    · next other =>
      rw [if_neg other]
      split at read <;> cases read <;> simp_all

/-- A character that is read outside is read in brackets as well. -/
theorem readNested_outside (read : readNested quotes [] c = some awaited) (brackets : InBrackets outer) :
    readNested quotes outer c = some (awaited ++ outer) := by
  cases outer with
  | nil => simpa using read
  | cons e outer =>
    have closes : isClosing e = true := brackets e rfl
    have stays : (e = '\\' || c = e) = false := by
      rcases isClosing_iff.mp closes with rfl | rfl | rfl <;>
        simp only [Bool.or_eq_false_iff, decide_eq_false_iff_not] <;>
        exact ⟨by decide, by rintro rfl; contradiction⟩
    have unquoted : isQuote e = false := by
      rcases isClosing_iff.mp closes with rfl | rfl | rfl <;> rfl
    simpa [readNested, stays, unquoted] using readUnquoted_append read (e :: outer)

theorem readNested_append (read : readNested quotes awaited c = some awaited') (brackets : InBrackets outer) :
    readNested quotes (awaited ++ outer) c = some (awaited' ++ outer) := by
  cases awaited with
  | nil => exact readNested_outside read brackets
  | cons e awaited =>
    simp only [readNested, List.cons_append] at read ⊢
    split at read
    · next ends =>
      cases read
      rw [if_pos ends]
    · next stays =>
      rw [if_neg stays]
      split at read
      · next quoted =>
        cases read
        rw [if_pos quoted]
        split <;> rfl
      · next unquoted =>
        rw [if_neg unquoted]
        exact readUnquoted_append read outer

theorem readInside_append (read : readInside quotes awaited c = some awaited') (brackets : InBrackets outer) :
    readInside quotes (awaited ++ outer) c = some (awaited' ++ outer) := by
  unfold readInside at read ⊢
  split at read
  · contradiction
  · next allowed =>
    have still : ¬ (awaited ++ outer = [] ∧ c = ',') := fun ⟨empty, comma⟩ =>
      allowed ⟨(List.append_eq_nil_iff.mp empty).1, comma⟩
    rw [if_neg still]
    exact readNested_append read brackets

theorem foldlM_readInside_append (read : cs.foldlM (readInside quotes) awaited = some awaited')
    (brackets : InBrackets outer) : cs.foldlM (readInside quotes) (awaited ++ outer) = some (awaited' ++ outer) := by
  induction cs generalizing awaited with
  | nil =>
    cases read
    rfl
  | cons c cs ih =>
    rw [List.foldlM_cons] at read ⊢
    obtain ⟨next, here, later⟩ := Option.bind_eq_some_iff.mp read
    rw [readInside_append here brackets]
    exact ih later

namespace Enclosed

/-- An enclosed text leaves open what was open before it. -/
theorem foldlM (enclosed : Enclosed quotes cs) (brackets : InBrackets outer) :
    cs.foldlM (readInside quotes) outer = some outer :=
  foldlM_readInside_append enclosed brackets

theorem append {before after : List Char} (first : Enclosed quotes before) (second : Enclosed quotes after) :
    Enclosed quotes (before ++ after) := by
  rw [Enclosed, List.foldlM_append, first]
  exact second

theorem of_plain (plain : ∀ c ∈ cs, c ≠ ',' ∧ isBracket c = false ∧ (quotes && isQuote c) = false) :
    Enclosed quotes cs := by
  induction cs with
  | nil => rfl
  | cons c cs ih =>
    obtain ⟨⟨comma, bracket, quote⟩, later⟩ := List.forall_mem_cons.mp plain
    simp only [isBracket, Bool.or_eq_false_iff, Option.isSome_eq_false_iff, Option.isNone_iff_eq_none] at bracket
    have here : readInside quotes [] c = some [] := by
      simp [readInside, readNested, readUnquoted, comma, bracket, quote]
    rw [Enclosed, List.foldlM_cons, here]
    exact ih later

theorem foldlM_intercalate {parts : List (List Char)} (each : ∀ part ∈ parts, Enclosed quotes part) :
    ([',', ' '].intercalate parts).foldlM (readInside quotes) [']'] = some [']'] := by
  have brackets : InBrackets [']'] := by simp [InBrackets, isClosing]
  induction parts with
  | nil => rfl
  | cons first rest ih =>
    obtain ⟨here, later⟩ := List.forall_mem_cons.mp each
    cases rest with
    | nil => simpa using here.foldlM brackets
    | cons second more =>
      have separator : [',', ' '].foldlM (readInside quotes) [']'] = some [']'] := by
        cases quotes <;> decide
      rw [List.intercalate_cons_cons, List.foldlM_append, List.foldlM_append, here.foldlM brackets]
      exact (congrArg (Option.bind · _) separator).trans (ih later)

theorem bracketed {parts : List (List Char)} (each : ∀ part ∈ parts, Enclosed quotes part) :
    Enclosed quotes ('[' :: [',', ' '].intercalate parts ++ [']']) := by
  have opened : readInside quotes [] '[' = some [']'] := rfl
  rw [Enclosed, List.cons_append, List.foldlM_cons, opened]
  refine (List.foldlM_append ..).trans ?_
  rw [foldlM_intercalate each]
  rfl

end Enclosed

theorem outerPieces_append (read : cs.foldlM (readInside quotes) awaited = some awaited') (rest : List Char) :
    outerPieces quotes awaited (cs ++ rest) =
      ((outerPieces quotes awaited' rest).1.modifyHead (cs ++ ·), (outerPieces quotes awaited' rest).2) := by
  induction cs generalizing awaited with
  | nil =>
    cases read
    exact Prod.ext (congrFun List.modifyHead_id _).symm rfl
  | cons c cs ih =>
    rw [List.foldlM_cons] at read
    obtain ⟨next, here, later⟩ := Option.bind_eq_some_iff.mp read
    unfold readInside at here
    split at here
    · contradiction
    · next allowed =>
      rw [List.cons_append, outerPieces, if_neg allowed, here]
      simp [ih later, List.modifyHead_modifyHead, Function.comp_def]

theorem outerPieces_comma (quotes : Bool) (cs : List Char) :
    outerPieces quotes [] (',' :: cs) = ([] :: (outerPieces quotes [] cs).1, (outerPieces quotes [] cs).2) := by
  rw [outerPieces, if_pos ⟨rfl, rfl⟩]

/-- Enclosed texts behind commas are found again, each but the first behind what stands between it and its comma. -/
theorem outerPieces_intercalate {rest : List Char} (ends : outerPieces quotes [] rest = ([[]], rest))
    {first : List Char} {further : List (List Char)} (each : ∀ part ∈ first :: further, Enclosed quotes part) :
    outerPieces quotes [] ([',', ' '].intercalate (first :: further) ++ rest) =
      (first :: further.map (' ' :: ·), rest) := by
  induction further generalizing first with
  | nil =>
    obtain ⟨here, -⟩ := List.forall_mem_cons.mp each
    rw [List.intercalate_singleton, outerPieces_append here, ends]
    simp
  | cons second more ih =>
    obtain ⟨here, later⟩ := List.forall_mem_cons.mp each
    have space : Enclosed quotes [' '] := .of_plain (by simp [isBracket, closing?, isClosing, isQuote])
    have spelled : [',', ' '].intercalate (first :: second :: more) ++ rest =
        first ++ ',' :: ([' '] ++ ([',', ' '].intercalate (second :: more) ++ rest)) := by
      simp [List.intercalate_cons_cons]
    rw [spelled, outerPieces_append here, outerPieces_comma, outerPieces_append space, ih later]
    simp

end SyncFacade.Text
