import SyncFacade.Decimal.Read
import SyncFacade.Decimal.Shortest
import Mathlib.Algebra.Order.Field.Power
import Mathlib.Tactic.FieldSimp
import Mathlib.Tactic.Linarith
import Mathlib.Tactic.NormNum
import Mathlib.Tactic.Ring

/-! The double nearest to a quotient. Every quotient in the interval around a double, ends included where they
belong to it, is rounded to that double. -/
namespace SyncFacade.Decimal

/-- The one form in which a finite double is given: no significand has a bit too many, and only the finest
doubles have one that could be shifted. -/
structure Canonical (significand : Nat) (exponent : Int) : Prop where
  below : significand < significandBound
  finest : minExponent ≤ exponent
  coarsest : exponent ≤ maxExponent
  normal : exponent = minExponent ∨ leastSignificand ≤ significand

/-- A real lies in an interval, and on its ends only if they belong to it. -/
structure Interval.Has (i : Interval) (unit : Int) (x : ℚ) : Prop where
  low_le : i.low * 2 ^ unit ≤ x
  le_high : x ≤ i.high * 2 ^ unit
  inside : i.closed = false → i.low * 2 ^ unit < x ∧ x < i.high * 2 ^ unit

theorem scaleBy_spec (base num : Nat) {den : Nat} (exponent : Int) (base_pos : 0 < base) (den_pos : 0 < den) :
    0 < (scaleBy base num den exponent).2 ∧
      ((scaleBy base num den exponent).1 : ℚ) / (scaleBy base num den exponent).2 =
        num / den * (base : ℚ) ^ exponent := by
  have base_ne : (base : ℚ) ≠ 0 := by exact_mod_cast base_pos.ne'
  unfold scaleBy
  rw [Nat.pow_eq]
  by_cases negative : exponent < 0
  · obtain ⟨k, rfl⟩ : ∃ k : Nat, exponent = -(k : Int) := ⟨exponent.natAbs, by omega⟩
    simp only [negative, if_true, Int.natAbs_neg, Int.natAbs_natCast]
    refine ⟨Nat.mul_pos den_pos (Nat.pow_pos base_pos), ?_⟩
    rw [zpow_neg, zpow_natCast]
    push_cast
    field_simp
  · obtain ⟨k, rfl⟩ : ∃ k : Nat, exponent = (k : Int) := ⟨exponent.natAbs, by omega⟩
    simp only [negative, if_false, Int.natAbs_natCast]
    refine ⟨den_pos, ?_⟩
    rw [zpow_natCast]
    push_cast
    field_simp

theorem eq_scaled_mul {base num den n d : Nat} {exponent : Int} (base_pos : 0 < base) (den_pos : 0 < den)
    (scaled : scaleBy base num den (-exponent) = (n, d)) :
    0 < d ∧ (num : ℚ) / den = n / d * (base : ℚ) ^ exponent := by
  obtain ⟨d_pos, value⟩ := scaleBy_spec base num (-exponent) base_pos den_pos
  have base_ne : (base : ℚ) ≠ 0 := by exact_mod_cast base_pos.ne'
  rw [scaled] at d_pos value
  refine ⟨d_pos, ?_⟩
  rw [value, mul_assoc, ← zpow_add₀ base_ne, neg_add_cancel, zpow_zero, mul_one]

/-- A quotient lies within a power of the base of that to which its two parts belong. -/
theorem quotient_bounds (base : Nat) {num den a b : Nat} (base_pos : 0 < base) (den_pos : 0 < den)
    (num_low : base ^ a ≤ num) (num_high : num < base ^ (a + 1)) (den_low : base ^ b ≤ den)
    (den_high : den < base ^ (b + 1)) :
    (base : ℚ) ^ ((a : Int) - b - 1) < num / den ∧ (num : ℚ) / den < (base : ℚ) ^ ((a : Int) - b + 1) := by
  have base_ne : (base : ℚ) ≠ 0 := by exact_mod_cast base_pos.ne'
  have positive : (0 : ℚ) < base := by exact_mod_cast base_pos
  have den_positive : (0 : ℚ) < den := by exact_mod_cast den_pos
  have lower : (base : ℚ) ^ ((a : Int) - b - 1) = (base : ℚ) ^ a / (base : ℚ) ^ (b + 1) := by
    rw [show (a : Int) - b - 1 = (a : Int) - ((b + 1 : Nat) : Int) by omega, zpow_sub₀ base_ne, zpow_natCast,
      zpow_natCast]
  have upper : (base : ℚ) ^ ((a : Int) - b + 1) = (base : ℚ) ^ (a + 1) / (base : ℚ) ^ b := by
    rw [show (a : Int) - b + 1 = ((a + 1 : Nat) : Int) - (b : Int) by omega, zpow_sub₀ base_ne, zpow_natCast,
      zpow_natCast]
  have num_low : (base : ℚ) ^ a ≤ num := by exact_mod_cast num_low
  have num_high : (num : ℚ) < (base : ℚ) ^ (a + 1) := by exact_mod_cast num_high
  have den_low : (base : ℚ) ^ b ≤ den := by exact_mod_cast den_low
  have den_high : (den : ℚ) < (base : ℚ) ^ (b + 1) := by exact_mod_cast den_high
  have power_pos (k : Nat) : (0 : ℚ) < (base : ℚ) ^ k := pow_pos positive k
  rw [lower, upper, div_lt_div_iff₀ (power_pos _) den_positive, div_lt_div_iff₀ den_positive (power_pos _)]
  constructor
  · calc (base : ℚ) ^ a * den < (base : ℚ) ^ a * (base : ℚ) ^ (b + 1) :=
        mul_lt_mul_of_pos_left den_high (power_pos a)
      _ ≤ num * (base : ℚ) ^ (b + 1) := mul_le_mul_of_nonneg_right num_low (power_pos _).le
  · calc (num : ℚ) * (base : ℚ) ^ b < (base : ℚ) ^ (a + 1) * (base : ℚ) ^ b :=
        mul_lt_mul_of_pos_right num_high (power_pos b)
      _ ≤ (base : ℚ) ^ (a + 1) * den := mul_le_mul_of_nonneg_left den_low (power_pos _).le

/-- A quotient half a unit or less from a natural number is rounded to it, if the number is even in a tie. -/
theorem roundHalfEven_eq {num den m : Nat} (den_pos : 0 < den) (low : 2 * m * den ≤ 2 * num + den)
    (high : 2 * num ≤ (2 * m + 1) * den)
    (ties : m % 2 ≠ 0 → 2 * m * den ≠ 2 * num + den ∧ 2 * num ≠ (2 * m + 1) * den) :
    roundHalfEven num den = m := by
  have split := Nat.div_add_mod num den
  have rest := Nat.mod_lt num den_pos
  unfold roundHalfEven
  generalize num / den = q at split ⊢
  generalize num % den = r at split rest ⊢
  subst split
  have le : q ≤ m := by
    by_contra above
    have : (m + 1) * den ≤ q * den := Nat.mul_le_mul_right den (by omega)
    nlinarith
  have ge : m ≤ q + 1 := by
    by_contra beneath
    have : (q + 2) * den ≤ m * den := Nat.mul_le_mul_right den (by omega)
    nlinarith
  obtain rfl | rfl : q = m ∨ m = q + 1 := by omega
  · have half : 2 * r ≤ den := by nlinarith
    have tie : 2 * r = den → q % 2 = 0 := fun equal => by
      by_contra odd
      exact (ties odd).2 (by rw [← equal]; ring)
    grind
  · have half : den ≤ 2 * r := by nlinarith
    have tie : 2 * r = den → (q + 1) % 2 = 0 := fun equal => by
      by_contra odd
      exact (ties odd).1 (by rw [← equal]; ring)
    grind

theorem roundHalfEven_near {num den m : Nat} (den_pos : 0 < den) (low : (m : ℚ) - 1 / 2 ≤ num / den)
    (high : (num : ℚ) / den ≤ m + 1 / 2)
    (ties : m % 2 ≠ 0 → (m : ℚ) - 1 / 2 < num / den ∧ (num : ℚ) / den < m + 1 / 2) :
    roundHalfEven num den = m := by
  have positive : (0 : ℚ) < den := by exact_mod_cast den_pos
  rw [le_div_iff₀ positive] at low
  rw [div_le_iff₀ positive] at high
  refine roundHalfEven_eq den_pos ?_ ?_ fun odd => ⟨fun equal => ?_, fun equal => ?_⟩
  · have : (2 * m * den : ℚ) ≤ 2 * num + den := by linarith
    exact_mod_cast this
  · have : (2 * num : ℚ) ≤ (2 * m + 1) * den := by linarith
    exact_mod_cast this
  · have strict := (lt_div_iff₀ positive).mp (ties odd).1
    have : (2 * m * den : ℚ) = 2 * num + den := by exact_mod_cast equal
    linarith
  · have strict := (div_lt_iff₀ positive).mp (ties odd).2
    have : (2 * num : ℚ) = (2 * m + 1) * den := by exact_mod_cast equal
    linarith

theorem two_pow_mul (k : Nat) (e : Int) : (2 : ℚ) ^ k * 2 ^ e = 2 ^ (k + e : Int) := by
  rw [zpow_add₀ two_ne_zero, zpow_natCast]

theorem two_pow_mul_le {k : Nat} {a b : Int} (le : a + k ≤ b) : (2 : ℚ) ^ k * 2 ^ a ≤ 2 ^ b := by
  rw [two_pow_mul]
  exact zpow_le_zpow_right₀ one_le_two (by omega)

theorem two_pow_quarters (e : Int) : (2 : ℚ) ^ e = 4 * 2 ^ (e - 2) := by
  rw [show (4 : ℚ) = 2 ^ 2 by norm_num, two_pow_mul]
  congr 1
  omega

theorem significandBound_le_iff {num den n d : Nat} {exponent : Int} (den_pos : 0 < den)
    (scaled : scaleBy 2 num den (-exponent) = (n, d)) :
    d * significandBound ≤ n ↔ (2 : ℚ) ^ 53 * 2 ^ exponent ≤ num / den := by
  obtain ⟨d_pos, value⟩ := eq_scaled_mul (by decide) den_pos scaled
  have positive : (0 : ℚ) < d := by exact_mod_cast d_pos
  have bound : ((d * significandBound : Nat) : ℚ) = 2 ^ 53 * d := by
    rw [significandBound, Nat.pow_eq]
    push_cast
    ring
  calc d * significandBound ≤ n ↔ (2 : ℚ) ^ 53 * d ≤ n := by rw [← bound, Nat.cast_le]
    _ ↔ (2 : ℚ) ^ 53 ≤ n / d := (le_div_iff₀ positive).symm
    _ ↔ (2 : ℚ) ^ 53 * 2 ^ exponent ≤ num / den := by
      rw [value, Nat.cast_ofNat, mul_le_mul_iff_of_pos_right (zpow_pos two_pos exponent)]

/-- Of a real whose magnitude is known up to one bit, the significand has as many bits as it can at the first exponent
tried, or else at the next one. -/
theorem exponent_bounds {x : ℚ} {magnitude low exponent : Int} (above : 2 ^ (magnitude - 1) < x)
    (beneath : x < 2 ^ (magnitude + 1)) (first : max minExponent (magnitude - 53) = low)
    (taken : 2 ^ 53 * 2 ^ low ≤ x ∧ exponent = low + 1 ∨ x < 2 ^ 53 * 2 ^ low ∧ exponent = low) :
    minExponent ≤ exponent ∧ x < 2 ^ 53 * 2 ^ exponent ∧
      (exponent = minExponent ∨ 2 ^ 52 * 2 ^ exponent ≤ x) := by
  rcases taken with ⟨large, rfl⟩ | ⟨small, rfl⟩
  · refine ⟨by omega, ?_, .inr (le_trans (le_of_eq ?_) large)⟩
    · rw [two_pow_mul]
      exact beneath.trans_le (zpow_le_zpow_right₀ one_le_two (by omega))
    · rw [two_pow_mul, two_pow_mul]
      congr 1
      omega
  · refine ⟨by omega, small, (le_or_gt exponent minExponent).imp (fun finest => by omega) fun normal => ?_⟩
    rw [two_pow_mul]
    exact (zpow_le_zpow_right₀ one_le_two (by omega)).trans above.le

/-- The rounding of a quotient, at the one exponent at which the significand has as many bits as it can. -/
theorem Double.ofQuotient_rounds (negative : Bool) {num den : Nat} (num_pos : 0 < num) (den_pos : 0 < den) :
    ∃ (exponent : Int) (n d : Nat), minExponent ≤ exponent ∧ (num : ℚ) / den < 2 ^ 53 * 2 ^ exponent ∧
      (exponent = minExponent ∨ 2 ^ 52 * 2 ^ exponent ≤ (num : ℚ) / den) ∧
      0 < d ∧ (num : ℚ) / den = n / d * 2 ^ exponent ∧
      Double.ofQuotient negative num den =
        if roundHalfEven n d = significandBound then
          if maxExponent < exponent + 1 then .infinite negative
          else .finite negative leastSignificand (exponent + 1)
        else if maxExponent < exponent then .infinite negative
          else .finite negative (roundHalfEven n d) exponent := by
  obtain ⟨above, beneath⟩ := quotient_bounds 2 (by decide) den_pos (Nat.log2_self_le num_pos.ne')
    Nat.lt_log2_self (Nat.log2_self_le den_pos.ne') Nat.lt_log2_self
  obtain ⟨low, low_eq⟩ : ∃ low : Int, max minExponent ((num.log2 : Int) - den.log2 - 53) = low := ⟨_, rfl⟩
  rcases coarsely : scaleBy 2 num den (-low) with ⟨N, D⟩
  obtain ⟨exponent, exponent_eq⟩ : ∃ exponent : Int,
      (if D * significandBound ≤ N then low + 1 else low) = exponent := ⟨_, rfl⟩
  rcases finely : scaleBy 2 num den (-exponent) with ⟨n, d⟩
  obtain ⟨d_pos, value⟩ := eq_scaled_mul (by decide) den_pos finely
  have taken : (2 : ℚ) ^ 53 * 2 ^ low ≤ num / den ∧ exponent = low + 1 ∨
      (num : ℚ) / den < 2 ^ 53 * 2 ^ low ∧ exponent = low := by
    have full := significandBound_le_iff den_pos coarsely
    by_cases large : D * significandBound ≤ N
    · exact .inl ⟨full.mp large, by rw [← exponent_eq, if_pos large]⟩
    · exact .inr ⟨not_le.mp (mt full.mpr large), by rw [← exponent_eq, if_neg large]⟩
  obtain ⟨finest, lt, normal⟩ := exponent_bounds above beneath low_eq taken
  refine ⟨exponent, n, d, finest, lt, normal, d_pos, by exact_mod_cast value, ?_⟩
  unfold Double.ofQuotient
  rw [if_neg num_pos.ne']
  -- the quotients stay closed, since the kernel would compute them at each step
  obtain ⟨scaled, same⟩ : ∃ scaled, scaleBy 2 num den = scaled := ⟨_, rfl⟩
  rw [same] at coarsely finely ⊢
  simp only [low_eq, coarsely, exponent_eq, finely]
  by_cases full : roundHalfEven n d = significandBound
  · simp only [full, if_true]
  · simp only [full, if_false]

theorem Interval.high_of (m : Nat) (e : Int) : ((Interval.of m e).high : ℚ) = 4 * m + 2 := by
  rw [Interval.of]
  push_cast
  ring

theorem Interval.low_of {m : Nat} (positive : 0 < m) (e : Int) :
    ((Interval.of m e).low : ℚ) =
      if m = leastSignificand ∧ minExponent < e then (4 * m - 1 : ℚ) else 4 * m - 2 := by
  unfold Interval.of
  simp only [← Bool.decide_and, decide_eq_true_eq]
  split
  · rw [Nat.cast_sub (by omega)]
    push_cast
    rfl
  · rw [Nat.cast_sub (by omega)]
    push_cast
    rfl

namespace Interval.Has

variable {m : Nat} {e : Int} {x : ℚ}

theorem bounds (inside : (Interval.of m e).Has (e - 2) x) (positive : 0 < m) :
    ((m : ℚ) - 1 / 2) * 2 ^ e ≤ x ∧ x ≤ (m + 1 / 2) * 2 ^ e ∧
      (m % 2 ≠ 0 → ((m : ℚ) - 1 / 2) * 2 ^ e < x ∧ x < (m + 1 / 2) * 2 ^ e) := by
  have unit_pos : (0 : ℚ) < 2 ^ (e - 2) := zpow_pos two_pos _
  have low : (4 * m - 2 : ℚ) ≤ (Interval.of m e).low := by
    rw [low_of positive]
    split <;> linarith
  have scaled : (4 * m - 2 : ℚ) * 2 ^ (e - 2) ≤ (Interval.of m e).low * 2 ^ (e - 2) :=
    mul_le_mul_of_nonneg_right low unit_pos.le
  have le_high := inside.le_high
  rw [high_of] at le_high
  rw [two_pow_quarters e]
  refine ⟨by linarith [inside.low_le], by linarith, fun odd => ?_⟩
  obtain ⟨above, beneath⟩ := inside.inside (by simpa [Interval.of] using odd)
  rw [high_of] at beneath
  exact ⟨by linarith, by linarith⟩

/-- Below a power of two the interval is narrower, since the doubles there lie closer. -/
theorem power_bound (inside : (Interval.of leastSignificand e).Has (e - 2) x) (above : minExponent < e) :
    ((leastSignificand : ℚ) - 1 / 4) * 2 ^ e ≤ x := by
  have low_le := inside.low_le
  rw [low_of (by decide), if_pos ⟨rfl, above⟩] at low_le
  rw [two_pow_quarters e]
  linarith

theorem pos (inside : (Interval.of m e).Has (e - 2) x) (positive : 0 < m) : 0 < x := by
  have one_le : (1 : ℚ) ≤ m := by exact_mod_cast positive
  exact (mul_pos (by linarith) (zpow_pos two_pos e)).trans_le (inside.bounds positive).1

theorem exponent_le {E : Int} (inside : (Interval.of m e).Has (e - 2) x) (canonical : Canonical m e)
    (positive : 0 < m) (normal : E = minExponent ∨ 2 ^ 52 * 2 ^ E ≤ x) : E ≤ e := by
  by_contra coarser
  have unit_pos : (0 : ℚ) < 2 ^ e := zpow_pos two_pos e
  have below : (m : ℚ) + 1 ≤ 2 ^ 53 := by exact_mod_cast canonical.below
  have high := (inside.bounds positive).2.1
  have doubled := two_pow_mul_le (show e + (1 : Nat) ≤ E by omega)
  have := normal.resolve_left (by have := canonical.finest; omega)
  nlinarith

/-- Only a power of two has reals around it that are first rounded at a finer exponent, which is the next one. -/
theorem power_of_finer {E : Int} (inside : (Interval.of m e).Has (e - 2) x) (canonical : Canonical m e)
    (positive : 0 < m) (lt : x < 2 ^ 53 * 2 ^ E) (finest : minExponent ≤ E) (finer : E < e) :
    m = leastSignificand ∧ e = E + 1 := by
  have unit_pos : (0 : ℚ) < 2 ^ e := zpow_pos two_pos e
  have least : (leastSignificand : ℚ) = 2 ^ 52 := by norm_num [leastSignificand]
  have above : minExponent < e := by omega
  have power : m = leastSignificand := by
    refine le_antisymm ?_ (canonical.normal.resolve_left above.ne')
    have low := (inside.bounds positive).1
    have : (m : ℚ) < leastSignificand + 1 := by
      have := two_pow_mul_le (show E + (1 : Nat) ≤ e by omega)
      rw [least]
      by_contra large
      nlinarith
    exact Nat.lt_succ_iff.mp (by exact_mod_cast this)
  subst power
  refine ⟨rfl, ?_⟩
  have low := inside.power_bound above
  rw [least] at low
  by_contra far
  have := two_pow_mul_le (show E + (2 : Nat) ≤ e by omega)
  nlinarith

theorem roundHalfEven_same {n d : Nat} (inside : (Interval.of m e).Has (e - 2) (n / d * 2 ^ e))
    (positive : 0 < m) (d_pos : 0 < d) : roundHalfEven n d = m := by
  have unit_pos : (0 : ℚ) < 2 ^ e := zpow_pos two_pos e
  obtain ⟨low, high, strict⟩ := inside.bounds positive
  refine roundHalfEven_near d_pos ?_ ?_ fun odd => ?_
  · exact le_of_mul_le_mul_right low unit_pos
  · exact le_of_mul_le_mul_right high unit_pos
  · exact ⟨lt_of_mul_lt_mul_right (strict odd).1 unit_pos.le, lt_of_mul_lt_mul_right (strict odd).2 unit_pos.le⟩

/-- Below a power of two the significand is rounded up to one that has a bit too many. -/
theorem roundHalfEven_finer {n d : Nat}
    (inside : (Interval.of leastSignificand (e + 1)).Has (e + 1 - 2) (n / d * 2 ^ e))
    (finest : minExponent ≤ e) (lt : (n : ℚ) / d * 2 ^ e < 2 ^ 53 * 2 ^ e) (d_pos : 0 < d) :
    roundHalfEven n d = significandBound := by
  have unit_pos : (0 : ℚ) < 2 ^ e := zpow_pos two_pos e
  have bound : (significandBound : ℚ) = 2 ^ 53 := by norm_num [significandBound]
  have least : (leastSignificand : ℚ) = 2 ^ 52 := by norm_num [leastSignificand]
  have low := inside.power_bound (by omega)
  rw [least, zpow_add_one₀ two_ne_zero] at low
  refine roundHalfEven_near d_pos ?_ ?_ fun odd => absurd (by decide) odd
  · rw [bound]
    nlinarith
  · rw [bound]
    nlinarith

end Interval.Has

/-- Whatever lies in the interval around a double is rounded to it. -/
theorem Double.ofQuotient_eq (negative : Bool) {num den m : Nat} {e : Int} (canonical : Canonical m e) (positive : 0 < m)
    (den_pos : 0 < den) (inside : (Interval.of m e).Has (e - 2) (num / den)) :
    Double.ofQuotient negative num den = .finite negative m e := by
  have num_pos : 0 < num := by
    have quotient_pos := inside.pos positive
    exact Nat.pos_of_ne_zero fun zero => by simp [zero] at quotient_pos
  obtain ⟨E, n, d, finest, lt, normal, d_pos, scaled, result⟩ := ofQuotient_rounds negative num_pos den_pos
  rw [scaled] at inside lt normal
  rw [result]
  obtain rfl | finer := (inside.exponent_le canonical positive normal).eq_or_lt
  · rw [inside.roundHalfEven_same positive d_pos, if_neg canonical.below.ne, if_neg (not_lt.mpr canonical.coarsest)]
  · obtain ⟨rfl, rfl⟩ := inside.power_of_finer canonical positive lt finest finer
    rw [if_pos (inside.roundHalfEven_finer finest lt d_pos), if_neg (not_lt.mpr canonical.coarsest)]

end SyncFacade.Decimal
