import SyncFacade.Proofs.Text.Quoted

/-! Texts that stand in a row without quotes. None is a literal of itself: the mark behind it would have to be among
the characters that are read, but each place that it is read from shows it in the text once more, further ahead. -/
namespace SyncFacade.Text

/-- What stands behind an item of a list. -/
def IsMark (c : Char) : Prop := c ∈ [',', ']']

variable {mark quote : Char} {fuel code : Nat} {codes : List Nat} {cs rest : List Char}

theorem readHex_split {w k n : Nat} (read : readHex w k cs = some (n, rest)) :
    ∃ taken, cs = taken ++ rest ∧ ∀ c ∈ taken, (hexValue? c).isSome = true := by
  induction w generalizing k cs with
  | zero =>
    obtain ⟨-, rfl⟩ := Prod.mk.inj (Option.some.inj read)
    exact ⟨[], rfl, nofun⟩
  | succ w ih =>
    cases cs with
    | nil => contradiction
    | cons c cs =>
      obtain ⟨d, digit, later⟩ := Option.bind_eq_some_iff.mp read
      obtain ⟨taken, rfl, digits⟩ := ih later
      exact ⟨c :: taken, rfl, List.forall_mem_cons.mpr ⟨by rw [digit]; rfl, digits⟩⟩

theorem IsMark.apart (isMark : IsMark mark) : hexValue? mark = none ∧ mark ∉ ['\\', '\'', '"', 'n', 'r', 't', 'x', 'u', 'U'] := by
  have table : ∀ c ∈ [',', ']'], hexValue? c = none ∧ c ∉ ['\\', '\'', '"', 'n', 'r', 't', 'x', 'u', 'U'] :=
    forall_mem_of_all (by decide)
  exact table mark isMark

theorem readHex_free {w n : Nat} (isMark : IsMark mark) (read : readHex w 0 cs = some (n, rest)) :
    ∃ taken, cs = taken ++ rest ∧ mark ∉ taken := by
  obtain ⟨taken, split, digits⟩ := readHex_split read
  refine ⟨taken, split, fun member => ?_⟩
  have digit := digits mark member
  rw [isMark.apart.1] at digit
  contradiction

/-- A mark is read as itself, and is no part of an escape. -/
theorem readCode_split (isMark : IsMark mark) (read : readCode true cs = some (code, rest)) :
    ∃ first taken, cs = first :: (taken ++ rest) ∧ mark ∉ taken ∧ (first = mark → code = mark.toNat) := by
  obtain ⟨-, other⟩ := isMark.apart
  simp only [List.mem_cons, List.not_mem_nil, or_false, not_or] at other
  unfold readCode at read
  split at read
  · contradiction
  · rename_i c cs
    have single (free : mark ≠ c) (same : cs = rest) : ∃ taken, c :: cs = taken ++ rest ∧ mark ∉ taken :=
      ⟨[c], by rw [same]; rfl, by simpa using free⟩
    have long {w : Nat} (free : mark ≠ c) (read : readHex w 0 cs = some (code, rest)) :
        ∃ taken, c :: cs = taken ++ rest ∧ mark ∉ taken := by
      obtain ⟨taken, split, digits⟩ := readHex_free isMark read
      exact ⟨c :: taken, by rw [split]; rfl, by simp [free, digits]⟩
    obtain ⟨taken, split, free⟩ : ∃ taken, c :: cs = taken ++ rest ∧ mark ∉ taken := by grind
    exact ⟨'\\', taken, by rw [split], free, fun same => absurd same.symm other.1⟩
  · split at read
    · contradiction
    · obtain ⟨rfl, rfl⟩ := Prod.mk.inj (Option.some.inj read)
      exact ⟨_, [], rfl, by simp, fun same => by rw [same]⟩

/-- A mark that is read through stands among the characters that are read, no further behind. -/
theorem readContent_mark (isMark : IsMark mark) (read : readContent true quote fuel cs = some (codes, rest)) {i : Nat}
    (inside : i < codes.length) (found : cs[i]? = some mark) : ∃ j ≤ i, codes[j]? = some mark.toNat := by
  induction fuel generalizing cs codes i with
  | zero => contradiction
  | succ fuel ih =>
    cases cs with
    | nil => contradiction
    | cons c cs =>
      rw [readContent] at read
      split at read
      · obtain ⟨rfl, -⟩ := Prod.mk.inj (Option.some.inj read)
        contradiction
      · obtain ⟨⟨code, behind⟩, here, later⟩ := Option.bind_eq_some_iff.mp read
        obtain ⟨⟨further, rest⟩, further_eq, same⟩ := Option.map_eq_some_iff.mp later
        obtain ⟨rfl, rfl⟩ := Prod.mk.inj same
        obtain ⟨first, taken, split, free, shown⟩ := readCode_split isMark here
        obtain ⟨rfl, rfl⟩ := List.cons.inj split
        rcases i with - | i
        · exact ⟨0, Nat.le_refl 0, by simpa using shown (by simpa using found)⟩
        · rw [List.getElem?_cons_succ, List.getElem?_append] at found
          split at found
          · exact absurd (List.mem_of_getElem? found) free
          · have short : i - taken.length < further.length := by
              rw [List.length_cons] at inside
              omega
            obtain ⟨j, bound, found⟩ := ih further_eq short found
            exact ⟨j + 1, by omega, found⟩

/-- No text is what is read from itself behind a quote in it, if a mark ends it. -/
theorem readContent_ne_self (isMark : IsMark mark) {before body behind : List Char} (free : mark ∉ before ++ [quote])
    (read : readContent true quote fuel (body ++ mark :: behind) = some (codes, rest)) :
    codes ≠ (before ++ [quote] ++ body).map Char.toNat := by
  rintro same
  have absent (j : Nat) : codes[j]? ≠ some mark.toNat := by
    induction j using Nat.strongRecOn with
    | ind j ih =>
      intro found
      rw [same, List.getElem?_map, Option.map_eq_some_iff] at found
      obtain ⟨c, found, equal⟩ := found
      obtain rfl := Char.toNat_inj.mp equal
      rw [List.getElem?_append] at found
      split at found
      · exact free (List.mem_of_getElem? found)
      · rename_i late
        have bound := (List.getElem?_eq_some_iff.mp found).1
        rw [List.length_append, List.length_singleton] at late
        have short : j - (before ++ [quote]).length < codes.length := by
          simp only [same, List.length_map, List.length_append, List.length_singleton] at bound ⊢
          omega
        obtain ⟨k, earlier, found⟩ := readContent_mark isMark read short (by rw [List.getElem?_append_left bound, found])
        rw [List.length_append, List.length_singleton] at earlier
        exact ih k (by omega) found
  have short : body.length < codes.length := by
    rw [same, List.length_map, List.length_append, List.length_append, List.length_singleton]
    omega
  obtain ⟨j, -, found⟩ := readContent_mark isMark read short (by simp)
  exact absent j found

end SyncFacade.Text
