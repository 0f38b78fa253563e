import SyncFacade.Text.Lines
import SyncFacade.Proofs.Text.Pieces
import Mathlib.Data.List.Basic

/-! The lines of a text that ends every line with a line feed. Reading them takes writing back, as long as no line
has a line feed inside. Free text is divided at more than line feeds, so that none is left in its lines. -/
namespace SyncFacade

/-- A text without a line feed. -/
def OneLine (s : String) : Prop := '\n' ∉ s.toList

instance (s : String) : Decidable (OneLine s) := inferInstanceAs (Decidable (_ ∉ _))

theorem oneLine_empty : OneLine "" := by decide

@[simp] theorem oneLine_append {a b : String} : OneLine (a ++ b) ↔ OneLine a ∧ OneLine b := by
  simp [OneLine]

theorem oneLine_intercalate {separator : String} {parts : List String} (between : OneLine separator)
    (each : ∀ s ∈ parts, OneLine s) : OneLine (separator.intercalate parts) := by
  induction parts with
  | nil => exact oneLine_empty
  | cons first rest ih =>
    have head := each first List.mem_cons_self
    have tail := ih fun s later => each s (List.mem_cons_of_mem first later)
    cases rest with
    | nil => simpa using head
    | cons second more =>
      rw [String.intercalate_cons_cons]
      simp only [oneLine_append]
      exact ⟨⟨head, between⟩, tail⟩

namespace Text

/-- The text of some lines, each of them ended by a line feed. -/
def ended (ls : List String) : String := String.join (ls.map (· ++ "\n"))

/-- What stands in a text between its line feeds, and around them. -/
def split (text : String) : List String := (pieces '\n' text.toList).map String.ofList

/-- What stands in a text before each of its line feeds. -/
def endedLines (text : String) : List String :=
  (pieces '\n' text.toList).dropLast.map String.ofList

@[simp] theorem ended_nil : ended [] = "" := rfl

@[simp] theorem ended_cons (l : String) (ls : List String) : ended (l :: ls) = l ++ "\n" ++ ended ls := by
  simp [ended]

@[simp] theorem ended_append (first second : List String) :
    ended (first ++ second) = ended first ++ ended second := by
  simp [ended]

theorem pieces_ne_nil (separator : Char) (cs : List Char) : pieces separator cs ≠ [] := by
  rw [pieces_eq_splitOn]
  exact List.splitOn_ne_nil separator cs

theorem pieces_ended {ls : List String} (plain : ∀ l ∈ ls, OneLine l) :
    pieces '\n' (ended ls).toList = ls.map String.toList ++ [[]] := by
  induction ls with
  | nil => rfl
  | cons l rest ih =>
    rw [List.forall_mem_cons] at plain
    have spelled : (ended (l :: rest)).toList = l.toList ++ '\n' :: (ended rest).toList := by simp
    rw [spelled, pieces_append_of_not_mem plain.1, ih plain.2]
    rfl

theorem endedLines_ended {ls : List String} (plain : ∀ l ∈ ls, OneLine l) :
    endedLines (ended ls) = ls := by
  rw [endedLines, pieces_ended plain, List.dropLast_concat]
  simp

/-- Nothing stands behind the last line feed. -/
theorem split_ended {ls : List String} (plain : ∀ l ∈ ls, OneLine l) : split (ended ls) = ls ++ [""] := by
  rw [split, pieces_ended plain]
  simp

theorem joinLines_eq_ended {ls : List String} (some_line : ls ≠ []) : joinLines ls ++ "\n" = ended ls := by
  induction ls with
  | nil => contradiction
  | cons l rest ih =>
    cases rest with
    | nil => simp [joinLines]
    | cons next more =>
      rw [ended_cons, ← ih (List.cons_ne_nil _ _)]
      simp only [joinLines, String.intercalate_cons_cons, String.append_assoc]

theorem joinLines_concat (ls : List String) (last : String) : joinLines (ls ++ [last]) = ended ls ++ last := by
  have feed : joinLines (ls ++ [last]) ++ "\n" = ended (ls ++ [last]) := joinLines_eq_ended (by simp)
  rw [ended_append, ended_cons, ended_nil, String.append_empty, ← String.append_assoc] at feed
  exact (String.append_left_inj _).mp feed

theorem mem_joinLines {c : Char} {l : String} {ls : List String} (listed : l ∈ ls) (inside : c ∈ l.toList) :
    c ∈ (joinLines ls).toList := by
  induction ls with
  | nil => contradiction
  | cons first rest ih =>
    cases rest with
    | nil =>
      cases List.mem_singleton.mp listed
      simpa [joinLines] using inside
    | cons second more =>
      rw [joinLines, String.intercalate_cons_cons, String.toList_append, String.toList_append, List.mem_append,
        List.mem_append]
      rcases List.mem_cons.mp listed with rfl | later
      · exact .inl (.inl inside)
      · exact .inr (ih later)

theorem pieces_joinLines {ls : List (List Char)} (some_line : ls ≠ []) (plain : ∀ l ∈ ls, '\n' ∉ l) :
    pieces '\n' (joinLines (ls.map String.ofList)).toList = ls := by
  cases ls with
  | nil => contradiction
  | cons l ls =>
    have spelled : (joinLines ((l :: ls).map String.ofList)).toList = ['\n'].intercalate (l :: ls) := by
      simp [joinLines, Function.comp_def]
    rw [spelled, pieces_intercalate (by simp) plain]
    simp

theorem subset_of_mem_pieces {separator : Char} {cs l : List Char} (member : l ∈ pieces separator cs) :
    l ⊆ cs := by
  induction cs generalizing l with
  | nil =>
    cases List.mem_singleton.mp member
    exact List.Subset.refl _
  | cons c cs ih =>
    unfold pieces at member
    split at member
    · rcases List.mem_cons.mp member with rfl | later
      · exact List.nil_subset _
      · exact List.subset_cons_of_subset c (ih later)
    · split at member
      · next none => exact absurd none (pieces_ne_nil _ _)
      · next first rest split =>
        rw [split] at ih
        rcases List.mem_cons.mp member with rfl | later
        · exact List.cons_subset_cons c (ih List.mem_cons_self)
        · exact List.subset_cons_of_subset c (ih (List.mem_cons_of_mem _ later))

/-- What ends a line of free text is in none of its lines. -/
theorem isLineBreak_of_mem_lines {cs l : List Char} (member : l ∈ lines cs) :
    ∀ c ∈ l, isLineBreak c = false := by
  fun_induction lines cs generalizing l with
  | case1 => contradiction
  | case2 cs ih =>
    rcases List.mem_cons.mp member with rfl | later
    · simp
    · exact ih later
  | case3 c cs _ ends ih =>
    rcases List.mem_cons.mp member with rfl | later
    · simp
    · exact ih later
  | case4 c cs _ stays last ih =>
    cases List.mem_singleton.mp member
    simpa using stays
  | case5 c cs _ stays first rest split ih =>
    rcases List.mem_cons.mp member with rfl | later
    · have inner := ih (split ▸ List.mem_cons_self)
      simpa [stays] using inner
    · exact ih (split ▸ List.mem_cons_of_mem _ later)

theorem subset_of_mem_lines {cs l : List Char} (member : l ∈ lines cs) : l ⊆ cs := by
  fun_induction lines cs generalizing l with
  | case1 => contradiction
  | case2 cs ih =>
    rcases List.mem_cons.mp member with rfl | later
    · exact List.nil_subset _
    · exact List.subset_cons_of_subset _ (List.subset_cons_of_subset _ (ih later))
  | case3 c cs _ ends ih =>
    rcases List.mem_cons.mp member with rfl | later
    · exact List.nil_subset _
    · exact List.subset_cons_of_subset c (ih later)
  | case4 c cs _ stays last ih =>
    cases List.mem_singleton.mp member
    simp
  | case5 c cs _ stays first rest split ih =>
    rw [split] at ih
    rcases List.mem_cons.mp member with rfl | later
    · exact List.cons_subset_cons c (ih List.mem_cons_self)
    · exact List.subset_cons_of_subset c (ih (List.mem_cons_of_mem _ later))

theorem lines_eq_nil_iff {cs : List Char} : lines cs = [] ↔ cs = [] := by
  fun_cases lines cs <;> simp [*]

/-- A character that is no line break is found in a line. -/
theorem exists_mem_lines {c : Char} (stays : isLineBreak c = false) {cs : List Char} (inside : c ∈ cs) :
    ∃ l ∈ lines cs, c ∈ l := by
  fun_induction lines cs with
  | case1 => contradiction
  | case2 cs ih =>
    have later : c ∈ cs := by
      rcases List.mem_cons.mp inside with rfl | inside
      · contradiction
      · rcases List.mem_cons.mp inside with rfl | later
        · contradiction
        · exact later
    obtain ⟨l, listed, here⟩ := ih later
    exact ⟨l, List.mem_cons_of_mem _ listed, here⟩
  | case3 d cs _ ends ih =>
    have later : c ∈ cs := (List.mem_cons.mp inside).resolve_left (by rintro rfl; simp [ends] at stays)
    obtain ⟨l, listed, here⟩ := ih later
    exact ⟨l, List.mem_cons_of_mem _ listed, here⟩
  | case4 d cs _ _ none ih =>
    have last : cs = [] := lines_eq_nil_iff.mp none
    exact ⟨[d], List.mem_singleton_self _, last ▸ inside⟩
  | case5 d cs _ _ l ls divided ih =>
    rcases List.mem_cons.mp inside with rfl | later
    · exact ⟨_, List.mem_cons_self, List.mem_cons_self⟩
    · obtain ⟨k, listed, here⟩ := ih later
      rw [divided] at listed
      rcases List.mem_cons.mp listed with rfl | further
      · exact ⟨_, List.mem_cons_self, List.mem_cons_of_mem d here⟩
      · exact ⟨k, List.mem_cons_of_mem _ further, here⟩

/-- The first line is the beginning of the text. -/
theorem prefix_of_lines {cs l : List Char} {ls : List (List Char)} (divided : lines cs = l :: ls) : l <+: cs := by
  fun_induction lines cs generalizing l ls with
  | case1 => contradiction
  | case2 cs ih =>
    cases divided
    exact List.nil_prefix
  | case3 c cs _ ends ih =>
    cases divided
    exact List.nil_prefix
  | case4 c cs _ stays last ih =>
    cases divided
    exact ⟨cs, rfl⟩
  | case5 c cs _ stays first rest split ih =>
    cases divided
    exact (List.prefix_cons_inj c).mpr (ih split)

/-- A character that does not end its line stands before the first of the further lines. -/
theorem lines_cons {c : Char} (stays : isLineBreak c = false) (cs : List Char) :
    lines (c :: cs) = match lines cs with
      | [] => [[c]]
      | l :: ls => (c :: l) :: ls := by
  generalize whole : c :: cs = text
  fun_cases lines text with
  | case1 => contradiction
  | case2 rest =>
    cases whole
    contradiction
  | case3 d rest _ ends =>
    cases whole
    simp [ends] at stays
  | case4 d rest _ _ last =>
    cases whole
    rw [last]
  | case5 d rest _ _ first others divided =>
    cases whole
    rw [divided]

/-- A break ends a line, and takes a line feed with it only if it is a carriage return. -/
theorem lines_break {c : Char} {cs : List Char} (ends : isLineBreak c = true) (single : c = '\r' → ¬ ['\n'] <+: cs) :
    lines (c :: cs) = [] :: lines cs := by
  generalize whole : c :: cs = text
  fun_cases lines text with
  | case1 => contradiction
  | case2 rest =>
    cases whole
    exact absurd ⟨rest, rfl⟩ (single rfl)
  | case3 d rest =>
    cases whole
    rfl
  | case4 d rest _ stays =>
    cases whole
    contradiction
  | case5 d rest _ stays =>
    cases whole
    contradiction

/-- A carriage return and a line feed are one break. -/
theorem lines_pair (cs : List Char) : lines ('\r' :: '\n' :: cs) = lines ('\n' :: cs) :=
  (lines_break (by decide) (by simp)).symm

end Text
end SyncFacade
