import SyncFacade.Source.Module
import SyncFacade.Proofs.Text.Lines

/-! The documentation of classes and methods in generated source. A literal is made only of a text that is there, and
there is one of every text but the empty one, so that no documentation keeps a class from being written. -/
namespace SyncFacade

namespace Docstring

theorem escapeTriples_eq_nil_iff {cs : List Char} : escapeTriples cs = [] ↔ cs = [] := by
  fun_cases escapeTriples cs <;> simp

theorem literalLines_eq_none_iff {margin cs : List Char} : literalLines margin cs = none ↔ cs = [] := by
  rw [← escapeTriples_eq_nil_iff, ← Text.lines_eq_nil_iff]
  unfold literalLines
  split <;> simp [*]

/-- A text has a literal unless it is empty, whatever its line breaks and quotes. -/
theorem literal_eq_error_iff {margin doc : String} {e : GenerationError} :
    literal margin doc = .error e ↔ e = .emptyDocstring ∧ doc = "" := by
  have empty : literalLines margin.toList doc.toList = none ↔ doc = "" :=
    literalLines_eq_none_iff.trans String.toList_eq_nil_iff
  rw [← empty, literal]
  cases literalLines margin.toList doc.toList <;> simp [eq_comm]

theorem exists_literal {margin doc : String} (content : doc ≠ "") : ∃ ls, literal margin doc = .ok ls := by
  cases made : literal margin doc with
  | error e => exact absurd (literal_eq_error_iff.mp made).2 content
  | ok ls => exact ⟨ls, rfl⟩

theorem mem_literal {margin doc : String} {ls : List String} (made : literal margin doc = .ok ls) {l : String}
    (member : l ∈ ls) :
    ∃ rows, literalLines margin.toList doc.toList = some rows ∧ ∃ row ∈ rows, l = String.ofList row := by
  unfold literal at made
  split at made
  · next rows spelled =>
    cases made
    obtain ⟨row, among, rfl⟩ := List.mem_map.mp member
    exact ⟨rows, spelled, row, among, rfl⟩
  · contradiction

end Docstring

/-- The lines that a documentation has in source. -/
def docRows (margin : String) (doc : Option String) : List String := (docLines margin doc).toOption.getD []

def classDocRows (doc : Option String) : List String := (classDocLines doc).toOption.getD []

section Rows

variable {margin l : String} {doc : Option String}

theorem left_out_or_literal (doc : Option String) : doc.filter (· != "") = none ∨
    ∃ text, doc.filter (· != "") = some text ∧ ∀ margin, ∃ ls, Docstring.literal margin text = .ok ls := by
  cases shown : doc.filter (· != "") with
  | none => exact .inl rfl
  | some text =>
    have content : text ≠ "" := by simpa using (Option.filter_eq_some_iff.mp shown).2
    exact .inr ⟨text, rfl, fun _ => Docstring.exists_literal content⟩

theorem docLines_eq (margin : String) (doc : Option String) : docLines margin doc = .ok (docRows margin doc) := by
  rw [docRows, docLines]
  obtain out | ⟨text, shown, each⟩ := left_out_or_literal doc
  · rw [out]
    rfl
  · obtain ⟨ls, made⟩ := each margin
    simp only [shown, made]
    rfl

theorem classDocLines_eq (doc : Option String) : classDocLines doc = .ok (classDocRows doc) := by
  rw [classDocRows, classDocLines]
  obtain out | ⟨text, shown, each⟩ := left_out_or_literal doc
  · rw [out]
    rfl
  · obtain ⟨ls, made⟩ := each indent
    simp only [shown, made]
    rfl

theorem mem_docRows (member : l ∈ docRows margin doc) : ∃ text rows,
    Docstring.literalLines margin.toList text = some rows ∧ ∃ row ∈ rows, l = String.ofList row := by
  have lines := docLines_eq margin doc
  rw [docLines] at lines
  split at lines
  · exact ⟨_, Docstring.mem_literal lines member⟩
  · rw [← Except.ok.inj lines] at member
    contradiction

/-- Below the literal of a class stands an empty line. -/
theorem mem_classDocRows (member : l ∈ classDocRows doc) : l = "" ∨ l ∈ docRows indent doc := by
  rw [classDocRows, classDocLines] at member
  rw [docRows, docLines]
  obtain out | ⟨text, shown, each⟩ := left_out_or_literal doc
  · rw [out] at member
    contradiction
  · obtain ⟨ls, made⟩ := each indent
    simp only [shown, made] at member ⊢
    exact (List.mem_append.mp member).symm.imp_left List.mem_singleton.mp

end Rows
end SyncFacade
