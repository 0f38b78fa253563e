import SyncFacade.Text.Pieces

/-! Splitting takes joining back. What stands between two pieces starts with the separator; whatever
else stands there is found in front of the second one. -/
namespace SyncFacade.Text

theorem pieces_eq_splitOn (separator : Char) (cs : List Char) :
    pieces separator cs = cs.splitOn separator := by
  induction cs with
  | nil => rfl
  | cons c cs ih =>
    rw [pieces, ih, List.splitOn_cons_eq_if_modifyHead]
    by_cases same : c = separator
    · rw [if_pos same, if_pos (by simp [same])]
    · rw [if_neg same, if_neg (by simp [same])]
      cases first : cs.splitOn separator with
      | nil => exact absurd first (List.splitOn_ne_nil separator cs)
      | cons l ls => rfl

theorem pieces_of_not_mem {separator : Char} {cs : List Char} (plain : separator ∉ cs) :
    pieces separator cs = [cs] := by
  rw [pieces_eq_splitOn, List.splitOn_eq_singleton plain]

theorem pieces_append_of_not_mem {separator : Char} {cs : List Char} (plain : separator ∉ cs)
    (rest : List Char) :
    pieces separator (cs ++ separator :: rest) = cs :: pieces separator rest := by
  rw [pieces_eq_splitOn, pieces_eq_splitOn]
  exact List.splitOn_append_cons_self_of_not_mem plain rest

theorem intercalate_gap (separator : Char) (gap l : List Char) (ls : List (List Char)) :
    (separator :: gap).intercalate (l :: ls) = [separator].intercalate (l :: ls.map (gap ++ ·)) := by
  induction ls generalizing l with
  | nil => simp
  | cons next rest ih =>
    have later : [separator].intercalate ((gap ++ next) :: rest.map (gap ++ ·)) =
        gap ++ [separator].intercalate (next :: rest.map (gap ++ ·)) := by
      cases rest <;> simp [List.intercalate_cons_cons]
    rw [List.intercalate_cons_cons, ih, List.map_cons, List.intercalate_cons_cons, later]
    simp only [List.append_assoc, List.cons_append, List.nil_append]

theorem pieces_intercalate {separator : Char} {gap l : List Char} {ls : List (List Char)}
    (gapFree : separator ∉ gap) (free : ∀ part ∈ l :: ls, separator ∉ part) :
    pieces separator ((separator :: gap).intercalate (l :: ls)) = l :: ls.map (gap ++ ·) := by
  rw [pieces_eq_splitOn, intercalate_gap]
  apply List.splitOn_intercalate
  · intro part member
    rcases List.mem_cons.mp member with rfl | later
    · exact free part List.mem_cons_self
    · obtain ⟨original, among, rfl⟩ := List.mem_map.mp later
      have := free original (List.mem_cons_of_mem l among)
      simp [gapFree, this]
  · exact List.cons_ne_nil _ _

end SyncFacade.Text
