import SyncFacade.Source.Module
import Mathlib.Data.List.Basic
import Mathlib.Tactic.Tauto

/-! Written types in pieces, of which those are told apart that qualify the name behind them. Put together the
pieces are the text of a type, of parameters and of a method's header. The modules that qualify something are
those of the types in it, at any depth, but for the module that is written. -/
namespace SyncFacade

inductive Piece where
  | plain (s : String)
  | qualifier (module : String)

namespace Piece

def text : Piece → String
  | .plain s => s
  | .qualifier m => m ++ "."

def join : List Piece → String
  | [] => ""
  | p :: ps => p.text ++ join ps

def separated (parts : List (List Piece)) : List Piece := [Piece.plain ", "].intercalate parts

@[simp] theorem join_nil : join [] = "" := rfl

@[simp] theorem join_cons (p : Piece) (ps : List Piece) : join (p :: ps) = p.text ++ join ps := rfl

@[simp] theorem text_plain (s : String) : (Piece.plain s).text = s := rfl

@[simp] theorem text_qualifier (m : String) : (Piece.qualifier m).text = m ++ "." := rfl

@[simp] theorem join_append (ps qs : List Piece) : join (ps ++ qs) = join ps ++ join qs := by
  induction ps with
  | nil => simp
  | cons p rest ih => simp [ih, String.append_assoc]

theorem separated_cons_cons (first second : List Piece) (more : List (List Piece)) :
    separated (first :: second :: more) = first ++ [Piece.plain ", "] ++ separated (second :: more) := by
  simp only [separated, List.intercalate_cons_cons]

@[simp] theorem join_separated (parts : List (List Piece)) :
    join (separated parts) = ", ".intercalate (parts.map join) := by
  induction parts with
  | nil => rfl
  | cons first rest ih =>
    cases rest with
    | nil => simp [separated]
    | cons second more =>
      rw [separated_cons_cons, join_append, ih]
      simp [String.append_assoc]

theorem qualifier_mem_separated {m : String} {parts : List (List Piece)} :
    Piece.qualifier m ∈ separated parts ↔ ∃ part ∈ parts, Piece.qualifier m ∈ part := by
  induction parts with
  | nil => simp [separated]
  | cons first rest ih =>
    cases rest with
    | nil => simp [separated]
    | cons second more =>
      rw [separated_cons_cons, List.mem_append, ih]
      simp

/-- A qualifier is seen in the text. -/
theorem join_ne_empty {ps : List Piece} {m : String} (member : Piece.qualifier m ∈ ps) : join ps ≠ "" := by
  induction ps with
  | nil => contradiction
  | cons p rest ih =>
    intro empty
    rw [join_cons, String.append_eq_empty_iff] at empty
    rcases List.mem_cons.mp member with rfl | later
    · exact absurd (String.append_eq_empty_iff.mp empty.1).2 (by decide)
    · exact ih later empty.2

end Piece

open Piece

namespace TypeRef

def labelPieces (target : Option String) (t : TypeRef) : List Piece :=
  ((t.printedQualifier target).map Piece.qualifier).toList ++ [.plain t.name]

mutual

def pieces (target : Option String) : TypeRef → List Piece
  | ⟨name, module, arguments⟩ =>
    labelPieces target ⟨name, module, []⟩ ++ match arguments with
      | [] => []
      | _ :: _ => [.plain "["] ++ separated (piecesOfAll target arguments) ++ [.plain "]"]

def piecesOfAll (target : Option String) : List TypeRef → List (List Piece)
  | [] => []
  | t :: ts => pieces target t :: piecesOfAll target ts

end

@[simp] theorem join_labelPieces (target : Option String) (t : TypeRef) :
    join (t.labelPieces target) = t.label target := by
  cases qualified : t.printedQualifier target <;> simp [labelPieces, label, qualified]

mutual

theorem join_pieces (target : Option String) : ∀ t : TypeRef, join (t.pieces target) = t.render target
  | ⟨name, module, []⟩ => by simp [pieces, render]
  | ⟨name, module, a :: rest⟩ => by
    have inside := join_piecesOfAll target (a :: rest)
    simp [pieces, render, inside, String.append_assoc]

theorem join_piecesOfAll (target : Option String) :
    ∀ ts : List TypeRef, (piecesOfAll target ts).map join = renderAll target ts
  | [] => by simp [piecesOfAll, renderAll]
  | t :: ts => by
    have head := join_pieces target t
    have tail := join_piecesOfAll target ts
    simp [piecesOfAll, renderAll, head, tail]

end

theorem qualifier_mem_labelPieces {target : Option String} {t : TypeRef} {m : String} :
    Piece.qualifier m ∈ t.labelPieces target ↔ t.qualifier = some m ∧ some m ≠ target := by
  simp [labelPieces, printedQualifier, Option.filter_eq_some_iff]

mutual

theorem qualifier_mem_pieces (target : Option String) (m : String) : ∀ t : TypeRef,
    Piece.qualifier m ∈ t.pieces target ↔ m ∈ t.modules ∧ some m ≠ target
  | ⟨name, module, []⟩ => by
    simp [pieces, modules, modulesOfAll, qualifier_mem_labelPieces]
  | ⟨name, module, a :: rest⟩ => by
    have inside := qualifier_mem_piecesOfAll target m (a :: rest)
    simp only [pieces, modules, List.mem_append, qualifier_mem_labelPieces, qualifier_mem_separated, inside]
    simp
    tauto

theorem qualifier_mem_piecesOfAll (target : Option String) (m : String) : ∀ ts : List TypeRef,
    (∃ part ∈ piecesOfAll target ts, Piece.qualifier m ∈ part) ↔ m ∈ modulesOfAll ts ∧ some m ≠ target
  | [] => by simp [piecesOfAll, modulesOfAll]
  | t :: ts => by
    have head := qualifier_mem_pieces target m t
    have tail := qualifier_mem_piecesOfAll target m ts
    simp only [piecesOfAll, modulesOfAll, List.mem_append, List.exists_mem_cons_iff, head, tail]
    tauto

end

theorem qualifier_mem_map_pieces {target : Option String} {m : String} (ts : List TypeRef) :
    (∃ part ∈ ts.map (pieces target), Piece.qualifier m ∈ part) ↔
      (∃ t ∈ ts, m ∈ t.modules) ∧ some m ≠ target := by
  simp only [List.mem_map, exists_exists_and_eq_and, qualifier_mem_pieces, ← and_assoc, exists_and_right]

end TypeRef

/-- The modules that stand in an annotation. -/
def annotationModules (t : Option TypeRef) : List String := (t.map TypeRef.modules).getD []

def annotationPieces (mark : String) (target : Option String) : Option TypeRef → List Piece
  | some t => .plain mark :: t.pieces target
  | none => []

theorem qualifier_mem_annotationPieces (mark : String) {target : Option String} {m : String}
    (t : Option TypeRef) :
    Piece.qualifier m ∈ annotationPieces mark target t ↔ m ∈ annotationModules t ∧ some m ≠ target := by
  cases t with
  | none => simp [annotationPieces, annotationModules]
  | some t => simp [annotationPieces, annotationModules, TypeRef.qualifier_mem_pieces]

namespace Parameter

def declarationPieces (target : Option String) (p : Parameter) : List Piece :=
  .plain p.markedName :: annotationPieces ": " target p.type ++
    (p.default.map fun d => Piece.plain (" = " ++ d)).toList

def itemPieces (target : Option String) : (starred : Bool) → List Parameter → List (List Piece)
  | _, [] => []
  | starred, p :: ps =>
    let star := p.kind = .keywordOnly && !starred
    let slash := p.kind = .positionalOnly && ps.head?.all (·.kind ≠ .positionalOnly)
    (if star then [[.plain "*"]] else []) ++ [p.declarationPieces target] ++
      (if slash then [[.plain "/"]] else []) ++
      itemPieces target (starred || star || p.kind = .extraPositional) ps

def pieces (target : Option String) (ps : List Parameter) : List Piece :=
  separated (itemPieces target false ps)

theorem join_declarationPieces (target : Option String) (p : Parameter) :
    join (p.declarationPieces target) = p.declaration target := by
  cases typed : p.type <;> cases given : p.default <;>
    simp [declarationPieces, declaration, annotationPieces, typed, given, TypeRef.join_pieces,
      String.append_assoc]

theorem join_itemPieces (target : Option String) (starred : Bool) (ps : List Parameter) :
    (itemPieces target starred ps).map join = items target starred ps := by
  induction ps generalizing starred with
  | nil => rfl
  | cons p rest ih =>
    simp only [itemPieces, items, List.map_append, ih, List.map_cons, List.map_nil, join_declarationPieces]
    congr 2
    · congr 1
      split <;> rfl
    · split <;> rfl

@[simp] theorem join_pieces (target : Option String) (ps : List Parameter) :
    join (pieces target ps) = renderAll target ps := by
  rw [pieces, join_separated, join_itemPieces, renderAll]

theorem qualifier_mem_declarationPieces {target : Option String} {p : Parameter} {m : String} :
    Piece.qualifier m ∈ p.declarationPieces target ↔ m ∈ annotationModules p.type ∧ some m ≠ target := by
  rw [← qualifier_mem_annotationPieces ": "]
  cases given : p.default <;> simp [declarationPieces, given]

theorem qualifier_mem_itemPieces {target : Option String} {m : String} (starred : Bool)
    (ps : List Parameter) :
    (∃ part ∈ itemPieces target starred ps, Piece.qualifier m ∈ part) ↔
      (∃ p ∈ ps, m ∈ annotationModules p.type) ∧ some m ≠ target := by
  induction ps generalizing starred with
  | nil => simp [itemPieces]
  | cons p rest ih =>
    have star : ∀ (b : Bool) (s : String), ¬ ∃ part ∈ (if b then [[Piece.plain s]] else []),
        Piece.qualifier m ∈ part := by
      intro b s
      cases b <;> simp
    simp only [itemPieces, List.mem_append, or_and_right, exists_or, ih, star, false_or,
      qualifier_mem_declarationPieces, List.exists_mem_cons_iff, List.not_mem_nil, false_and, exists_false,
      or_false]

theorem qualifier_mem_pieces {target : Option String} {m : String} (ps : List Parameter) :
    Piece.qualifier m ∈ pieces target ps ↔
      (∃ p ∈ ps, m ∈ annotationModules p.type) ∧ some m ≠ target := by
  rw [pieces, qualifier_mem_separated, qualifier_mem_itemPieces]

end Parameter

namespace Method

def headerPieces (m : Method) (target : Option String) : List Piece :=
  .plain ("def " ++ m.name ++ "(self") ::
    (if Parameter.renderAll target m.parameters = "" then []
      else .plain ", " :: Parameter.pieces target m.parameters) ++
    [.plain ")"] ++ annotationPieces " -> " target m.result ++ [.plain ":"]

theorem join_headerPieces (m : Method) (target : Option String) :
    join (m.headerPieces target) = m.header target := by
  have closed : ∀ s : String, "(self" ++ (")" ++ s) = "(self)" ++ s := by
    intro s
    rw [← String.append_assoc]
    rfl
  by_cases bare : Parameter.renderAll target m.parameters = "" <;> cases typed : m.result <;>
    simp [headerPieces, header, annotationPieces, bare, typed, closed, TypeRef.join_pieces,
      String.append_assoc]

theorem qualifier_mem_headerPieces {m : Method} {target : Option String} {module : String} :
    Piece.qualifier module ∈ m.headerPieces target ↔ module ∈ m.modules ∧ some module ≠ target := by
  have parameters : Piece.qualifier module ∈ (if Parameter.renderAll target m.parameters = "" then []
        else .plain ", " :: Parameter.pieces target m.parameters) ↔
      Piece.qualifier module ∈ Parameter.pieces target m.parameters := by
    by_cases bare : Parameter.renderAll target m.parameters = ""
    · rw [if_pos bare]
      refine ⟨fun none => by contradiction, fun member => ?_⟩
      exact absurd ((Parameter.join_pieces target m.parameters).trans bare) (join_ne_empty member)
    · simp [if_neg bare]
  have collected : module ∈ m.modules ↔ (∃ p ∈ m.parameters, module ∈ annotationModules p.type) ∨
      module ∈ annotationModules m.result := by
    rw [modules, List.mem_append, List.mem_flatMap]
    rfl
  simp only [headerPieces, List.cons_append, List.mem_cons, List.mem_append, parameters, collected,
    Parameter.qualifier_mem_pieces, qualifier_mem_annotationPieces, reduceCtorEq, List.not_mem_nil,
    false_or, or_false, or_and_right]

end Method

end SyncFacade
