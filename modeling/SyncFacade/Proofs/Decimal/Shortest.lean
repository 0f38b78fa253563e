import SyncFacade.Proofs.Decimal.Rounding

/-! The shortest decimal of a double lies in the interval of that double, whatever its exponent. The search for it
ends, since the points of seventeen digits lie closer than the ends of the interval. -/
namespace SyncFacade.Decimal

namespace Interval

variable {i : Interval} {unit place : Int}

theorem contains_iff {point : Nat} : i.contains unit point place = true ↔ i.Has unit (point * 10 ^ place) := by
  obtain ⟨d_pos, two⟩ := scaleBy_spec 2 1 unit (by decide) one_pos
  obtain ⟨q_pos, ten⟩ := scaleBy_spec 10 point place (by decide) one_pos
  rcases powers : scaleBy 2 1 1 unit with ⟨n, d⟩
  rcases points : scaleBy 10 point 1 place with ⟨p, q⟩
  rw [powers] at two d_pos
  rw [points] at ten q_pos
  have d_positive : (0 : ℚ) < d := by exact_mod_cast d_pos
  have q_positive : (0 : ℚ) < q := by exact_mod_cast q_pos
  have two : (2 : ℚ) ^ unit = n / d := by simpa using two.symm
  have ten : (point : ℚ) * 10 ^ place = p / q := by simpa using ten.symm
  have le_iff (k : Nat) : (k : ℚ) * 2 ^ unit ≤ point * 10 ^ place ↔ k * n * q ≤ p * d := by
    rw [two, ten, ← mul_div_assoc, div_le_div_iff₀ d_positive q_positive]
    exact_mod_cast Iff.rfl
  have ge_iff (k : Nat) : (point : ℚ) * 10 ^ place ≤ k * 2 ^ unit ↔ p * d ≤ k * n * q := by
    rw [two, ten, ← mul_div_assoc, div_le_div_iff₀ q_positive d_positive]
    exact_mod_cast Iff.rfl
  unfold contains
  simp only [powers, points]
  constructor
  · intro inside
    split at inside
    · simp only [Bool.and_eq_true, decide_eq_true_eq] at inside
      exact ⟨(le_iff _).mpr inside.1, (ge_iff _).mpr inside.2, fun opened => by simp_all⟩
    · simp only [Bool.and_eq_true, decide_eq_true_eq] at inside
      exact ⟨(le_iff _).mpr inside.1.le, (ge_iff _).mpr inside.2.le, fun _ =>
        ⟨lt_of_not_ge (mt (ge_iff _).mp (by omega)), lt_of_not_ge (mt (le_iff _).mp (by omega))⟩⟩
  · intro inside
    split
    · simp only [Bool.and_eq_true, decide_eq_true_eq]
      exact ⟨(le_iff _).mp inside.low_le, (ge_iff _).mp inside.le_high⟩
    · rename_i opened
      obtain ⟨low, high⟩ := inside.inside (by simpa using opened)
      simp only [Bool.and_eq_true, decide_eq_true_eq]
      exact ⟨lt_of_not_ge (mt (ge_iff _).mpr (not_le.mpr low)), lt_of_not_ge (mt (le_iff _).mpr (not_le.mpr high))⟩

theorem pick_inside {point : Nat} (picked : i.pick unit place = some point) : i.Has unit (point * 10 ^ place) := by
  rw [← contains_iff]
  unfold pick at picked
  grind

/-- A point of the grid next to the value lies in the interval if it is found there. -/
theorem exists_pick (i : Interval) (unit place : Int) : ∃ below : Nat,
    (below : ℚ) * 10 ^ place ≤ i.value * 2 ^ unit ∧ (i.value : ℚ) * 2 ^ unit < (below + 1) * 10 ^ place ∧
      (i.Has unit (below * 10 ^ place) ∨ i.Has unit ((below + 1) * 10 ^ place) →
        ∃ point, i.pick unit place = some point) := by
  have ten_pos : (0 : ℚ) < 10 ^ place := zpow_pos (by norm_num) place
  obtain ⟨D_pos, value⟩ := scaleBy_spec 2 i.value unit (by decide) one_pos
  rcases powers : scaleBy 2 i.value 1 unit with ⟨N, D⟩
  rw [powers] at value D_pos
  rcases points : scaleBy 10 N D (-place) with ⟨n, d⟩
  obtain ⟨d_pos, grid⟩ := eq_scaled_mul (by decide) D_pos points
  have quotient : (i.value : ℚ) * 2 ^ unit = n / d * 10 ^ place := by
    rw [value, Nat.cast_one, div_one, Nat.cast_ofNat] at grid
    exact grid
  have d_positive : (0 : ℚ) < d := by exact_mod_cast d_pos
  refine ⟨n / d, ?_, ?_, fun inside => ?_⟩
  · rw [quotient]
    refine mul_le_mul_of_nonneg_right ?_ ten_pos.le
    rw [le_div_iff₀ d_positive]
    exact_mod_cast Nat.div_mul_le_self n d
  · rw [quotient]
    refine mul_lt_mul_of_pos_right ?_ ten_pos
    rw [div_lt_iff₀ d_positive]
    exact_mod_cast Nat.lt_mul_of_div_lt (Nat.lt_succ_self _) d_pos
  · have next : ((n / d : Nat) : ℚ) + 1 = ((n / d + 1 : Nat) : ℚ) := by push_cast; rfl
    rw [next, ← contains_iff, ← contains_iff] at inside
    unfold pick
    simp only [powers, points]
    by_cases above : i.contains unit (n / d + 1) place = true
    · rw [if_pos above]
      split <;> exact ⟨_, rfl⟩
    · exact ⟨_, if_pos (by simp [inside.resolve_right above, above])⟩

end Interval

theorem dropZeros_value (fuel n : Nat) (place : Int) :
    ((dropZeros fuel n place).1 : ℚ) * 10 ^ (dropZeros fuel n place).2 = n * 10 ^ place := by
  induction fuel generalizing n place with
  | zero => rfl
  | succ fuel ih =>
    unfold dropZeros
    split
    · rename_i divisible
      rw [ih, zpow_add_one₀ (by norm_num), mul_comm ((10 : ℚ) ^ place) 10, ← mul_assoc]
      congr 1
      exact_mod_cast Nat.div_mul_cancel (Nat.dvd_of_mod_eq_zero divisible)
    · rfl

theorem digitCount_bounds {n : Nat} (positive : 0 < n) :
    ∃ k, digitCount n = k + 1 ∧ 10 ^ k ≤ n ∧ n < 10 ^ (k + 1) := by
  obtain ⟨k, count⟩ := Nat.exists_eq_add_of_le' (Nat.length_toDigits_pos (b := 10) (n := n))
  have high : n < 10 ^ (k + 1) := (Nat.length_toDigits_le_iff (by decide) k.succ_pos).mp count.le
  refine ⟨k, count, ?_, high⟩
  cases k with
  | zero => exact positive
  | succ k =>
    by_contra small
    have := (Nat.length_toDigits_le_iff (by decide) k.succ_pos).mpr (not_le.mp small)
    omega

theorem leadingExponent_le {num den : Nat} (num_pos : 0 < num) (den_pos : 0 < den) :
    (10 : ℚ) ^ leadingExponent num den ≤ num / den := by
  obtain ⟨a, num_count, num_low, num_high⟩ := digitCount_bounds num_pos
  obtain ⟨b, den_count, den_low, den_high⟩ := digitCount_bounds den_pos
  have bounds := quotient_bounds 10 (by decide) den_pos num_low num_high den_low den_high
  obtain ⟨guess, guess_eq⟩ : ∃ guess : Int, (digitCount num : Int) - digitCount den = guess := ⟨_, rfl⟩
  rcases powers : scaleBy 10 num den (-guess) with ⟨n, d⟩
  obtain ⟨d_pos, quotient⟩ := eq_scaled_mul (by decide) den_pos powers
  have d_positive : (0 : ℚ) < d := by exact_mod_cast d_pos
  unfold leadingExponent
  simp only [guess_eq, powers]
  split
  · rename_i reached
    have one_le : (1 : ℚ) ≤ n / d := by
      rw [le_div_iff₀ d_positive, one_mul]
      exact_mod_cast reached
    rw [quotient, Nat.cast_ofNat]
    exact le_mul_of_one_le_left (zpow_nonneg (by norm_num) guess) one_le
  · have : guess - 1 = (a : Int) - b - 1 := by omega
    rw [this]
    exact_mod_cast bounds.1.le

theorem Interval.value_of (m : Nat) (e : Int) : ((Interval.of m e).value : ℚ) * 2 ^ (e - 2) = m * 2 ^ e := by
  rw [two_pow_quarters e, Interval.of]
  push_cast
  ring

theorem Interval.has_of_lt {i : Interval} {unit : Int} {x : ℚ} (low : i.low * 2 ^ unit < x)
    (high : x < i.high * 2 ^ unit) : i.Has unit x :=
  ⟨low.le, high.le, fun _ => ⟨low, high⟩⟩

/-- Seventeen digits are enough: the points of that many digits lie closer than the ends of the interval, and below a
power of two closer than its upper half is wide. -/
theorem exists_pick_of_spacing {m : Nat} {e place : Int} (below : m < significandBound) (positive : 0 < m)
    (spacing : (10 : ℚ) ^ 16 * 10 ^ place ≤ m * 2 ^ e) :
    ∃ point, (Interval.of m e).pick (e - 2) place = some point := by
  have unit_pos : (0 : ℚ) < 2 ^ (e - 2) := zpow_pos two_pos _
  have unit := two_pow_quarters e
  have grid_pos : (0 : ℚ) < 10 ^ place := zpow_pos (by norm_num) place
  have below : (m : ℚ) < 2 ^ 53 := by exact_mod_cast below
  have high := Interval.high_of m e
  have low := Interval.low_of positive e
  have low_lt : ((Interval.of m e).low : ℚ) < 4 * m := by
    rw [low]
    split <;> linarith
  obtain ⟨k, le, lt, found⟩ := Interval.exists_pick (Interval.of m e) (e - 2) place
  rw [Interval.value_of] at le lt
  rw [unit] at le lt spacing
  refine found ?_
  by_cases above : ((k : ℚ) + 1) * 10 ^ place < (Interval.of m e).high * 2 ^ (e - 2)
  · refine .inr (Interval.has_of_lt ?_ above)
    nlinarith
  · have regular : ¬(m = leastSignificand ∧ minExponent < e) := by
      rintro ⟨rfl, -⟩
      have least : (leastSignificand : ℚ) = 2 ^ 52 := by norm_num [leastSignificand]
      rw [high, least] at above
      rw [least] at le spacing
      linarith
    refine .inl (Interval.has_of_lt ?_ ?_)
    · rw [low, if_neg regular]
      rw [high] at above
      nlinarith
    · rw [high]
      nlinarith

/-- The shortest decimal of a double is one of the reals that are rounded to it. -/
theorem shortest_inside {m : Nat} {e : Int} (below : m < significandBound) (positive : 0 < m) :
    (Interval.of m e).Has (e - 2) ((shortest m e).1 * 10 ^ (shortest m e).2) := by
  obtain ⟨d_pos, value⟩ := scaleBy_spec 2 (Interval.of m e).value (e - 2) (by decide) one_pos
  rcases powers : scaleBy 2 (Interval.of m e).value 1 (e - 2) with ⟨n, d⟩
  rw [powers] at value d_pos
  have value : (n : ℚ) / d = m * 2 ^ e := by
    rw [← Interval.value_of]
    simpa using value
  have n_pos : 0 < n := by
    have : (0 : ℚ) < n / d := value ▸ mul_pos (by exact_mod_cast positive) (zpow_pos two_pos e)
    exact Nat.pos_of_ne_zero fun zero => by simp [zero] at this
  have leading := leadingExponent_le n_pos d_pos
  unfold shortest
  simp only [powers]
  rw [dropZeros_value]
  generalize leadingExponent n d = first at leading ⊢
  cases hit : (List.range 17).findSome? fun extra : Nat =>
      ((Interval.of m e).pick (e - 2) (first - extra)).map (·, first - (extra : Int)) with
  | none =>
    have spacing : (10 : ℚ) ^ 16 * 10 ^ (first - (16 : Nat)) ≤ m * 2 ^ e := by
      rw [← zpow_natCast, ← zpow_add₀ (by norm_num), ← value]
      convert leading using 2
      omega
    obtain ⟨point, picked⟩ := exists_pick_of_spacing below positive spacing
    have missed := List.findSome?_eq_none_iff.mp hit 16 (by simp)
    rw [picked] at missed
    contradiction
  | some found =>
    obtain ⟨extra, -, mapped⟩ := List.exists_of_findSome?_eq_some hit
    obtain ⟨point, picked, rfl⟩ := Option.map_eq_some_iff.mp mapped
    exact Interval.pick_inside picked

/-- The reals that are rounded to a positive double lie in the range of doubles. -/
theorem Interval.Has.range {m : Nat} {e : Int} {x : ℚ} (inside : (Interval.of m e).Has (e - 2) x)
    (canonical : Canonical m e) (positive : 0 < m) : (2 : ℚ) ^ (-1075 : Int) ≤ x ∧ x < 2 ^ (1024 : Int) := by
  have unit_pos : (0 : ℚ) < 2 ^ e := zpow_pos two_pos e
  have one_le : (1 : ℚ) ≤ m := by exact_mod_cast positive
  have below : (m : ℚ) + 1 ≤ 2 ^ 53 := by exact_mod_cast canonical.below
  obtain ⟨low, high, -⟩ := inside.bounds positive
  constructor
  · have finest : (2 : ℚ) ^ (1 : Nat) * 2 ^ (-1075 : Int) ≤ 2 ^ e := two_pow_mul_le canonical.finest
    nlinarith
  · calc x ≤ (m + 1 / 2) * 2 ^ e := high
      _ < 2 ^ (53 : Nat) * 2 ^ e := mul_lt_mul_of_pos_right (by linarith) unit_pos
      _ ≤ 2 ^ (1024 : Int) := two_pow_mul_le (by have := canonical.coarsest; unfold maxExponent at this; omega)

theorem digitCount_range {digits : Nat} (positive : 0 < digits) (place : Int) :
    (10 : ℚ) ^ (digitCount digits + place - 1) ≤ digits * 10 ^ place ∧
      (digits : ℚ) * 10 ^ place < 10 ^ (digitCount digits + place) := by
  have ten_pos : (0 : ℚ) < 10 ^ place := zpow_pos (by norm_num) place
  obtain ⟨k, count, least, most⟩ := digitCount_bounds positive
  have least : (10 : ℚ) ^ k ≤ digits := by exact_mod_cast least
  have most : (digits : ℚ) < 10 ^ (k + 1) := by exact_mod_cast most
  rw [count]
  constructor
  · calc (10 : ℚ) ^ (((k + 1 : Nat) : Int) + place - 1) = 10 ^ ((k : Int) + place) := by congr 1; omega
      _ = 10 ^ k * 10 ^ place := by rw [zpow_add₀ (by norm_num), zpow_natCast]
      _ ≤ digits * 10 ^ place := mul_le_mul_of_nonneg_right least ten_pos.le
  · calc (digits : ℚ) * 10 ^ place < 10 ^ (k + 1) * 10 ^ place := mul_lt_mul_of_pos_right most ten_pos
      _ = 10 ^ (((k + 1 : Nat) : Int) + place) := by rw [zpow_add₀ (by norm_num), zpow_natCast]

/-- A decimal with its leading digit far outside the range of doubles lies in no interval, so the exponents at which
reading stops early are never met there. -/
theorem leading_of_inside {m digits : Nat} {e place : Int} (canonical : Canonical m e) (positive : 0 < m)
    (inside : (Interval.of m e).Has (e - 2) (digits * 10 ^ place)) :
    0 < digits ∧ -400 ≤ digitCount digits + place ∧ digitCount digits + place ≤ 400 := by
  have digits_pos : 0 < digits := by
    have decimal_pos := inside.pos positive
    exact Nat.pos_of_ne_zero fun zero => by simp [zero] at decimal_pos
  obtain ⟨finest, coarsest⟩ := inside.range canonical positive
  obtain ⟨least, most⟩ := digitCount_range digits_pos place
  refine ⟨digits_pos, ?_, ?_⟩
  · by_contra small
    have tiny : (10 : ℚ) ^ (digitCount digits + place) ≤ 10 ^ (-401 : Int) :=
      zpow_le_zpow_right₀ (by norm_num) (by omega)
    have powers : (10 : ℚ) ^ (-401 : Int) ≤ 2 ^ (-1075 : Int) := by
      have : (2 : Nat) ^ 1075 ≤ 10 ^ 401 := by decide +kernel
      rw [zpow_neg, zpow_neg, inv_le_inv₀ (zpow_pos (by norm_num) 401) (zpow_pos two_pos 1075)]
      exact_mod_cast this
    exact absurd finest (not_le.mpr (most.trans_le (tiny.trans powers)))
  · by_contra large
    have huge : (10 : ℚ) ^ (400 : Int) ≤ 10 ^ (digitCount digits + place - 1) :=
      zpow_le_zpow_right₀ (by norm_num) (by omega)
    have powers : (2 : ℚ) ^ (1024 : Int) ≤ 10 ^ (400 : Int) := by
      have : (2 : Nat) ^ 1024 ≤ 10 ^ 400 := by decide +kernel
      exact_mod_cast this
    exact absurd coarsest (not_lt.mpr (powers.trans (huge.trans least)))

/-- A decimal in the interval around a double is read as this double. -/
theorem Double.ofDecimal_eq (negative : Bool) {m digits : Nat} {e place : Int} (canonical : Canonical m e)
    (positive : 0 < m) (inside : (Interval.of m e).Has (e - 2) (digits * 10 ^ place)) :
    Double.ofDecimal negative digits place = .finite negative m e := by
  obtain ⟨digits_pos, least, most⟩ := leading_of_inside canonical positive inside
  obtain ⟨d_pos, scaled⟩ := scaleBy_spec 10 digits place (by decide) one_pos
  rcases points : scaleBy 10 digits 1 place with ⟨n, d⟩
  rw [points] at scaled d_pos
  have quotient : (digits : ℚ) * 10 ^ place = n / d := by simpa using scaled.symm
  have rounded := Double.ofQuotient_eq negative canonical positive d_pos (quotient ▸ inside)
  unfold Double.ofDecimal
  obtain ⟨power, same⟩ : ∃ power, scaleBy 10 digits 1 = power := ⟨_, rfl⟩
  rw [same] at points ⊢
  extract_lets leading
  have leading_eq : leading = digitCount digits + place := rfl
  have started : ¬(decide (digits = 0) || decide (leading < -400)) = true := by
    simp only [Bool.or_eq_true, decide_eq_true_eq]
    omega
  rw [if_neg started, if_neg (by omega), points]
  exact rounded

end SyncFacade.Decimal
