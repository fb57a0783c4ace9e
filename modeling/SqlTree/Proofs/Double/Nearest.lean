import Mathlib.Algebra.Order.Field.Power
import Mathlib.Data.Rat.Cast.Order
import Mathlib.Tactic.FieldSimp
import Mathlib.Tactic.Linarith
import Mathlib.Tactic.NormNum
import Mathlib.Tactic.Positivity
import SqlTree.Double.Nearest
import SqlTree.Double.Shortest

/-!
# The nearest double, found

Reading gives a double back from every number of its rounding interval. The interval is stretched
around the double in quarters of its unit, and a power of two has its lower end nearer.
-/

namespace SqlTree.Double

/-! ## Powers as quotients -/

theorem pow_toNat_div {b : ℕ} (hb : b ≠ 0) (e : ℤ) :
    (b : ℚ) ^ e.toNat / (b : ℚ) ^ (-e).toNat = (b : ℚ) ^ e := by
  have nonzero : (b : ℚ) ≠ 0 := Nat.cast_ne_zero.mpr hb
  rcases Int.le_total 0 e with h | h
  · rw [Int.toNat_eq_zero.mpr (by omega : -e ≤ 0), pow_zero, div_one, ← zpow_natCast,
      Int.toNat_of_nonneg h]
  · rw [Int.toNat_eq_zero.mpr h, pow_zero, one_div, ← zpow_natCast,
      Int.toNat_of_nonneg (by omega : 0 ≤ -e), zpow_neg, inv_inv]

theorem shift_div_shift (num den : ℕ) (e : ℤ) :
    ((num <<< (-e).toNat : ℕ) : ℚ) / ((den <<< e.toNat : ℕ) : ℚ) = num / den / 2 ^ e := by
  have powers := pow_toNat_div two_ne_zero (-e)
  rw [neg_neg, zpow_neg, Nat.cast_ofNat] at powers
  rw [Nat.shiftLeft_eq, Nat.shiftLeft_eq, Nat.cast_mul, Nat.cast_mul, Nat.cast_pow, Nat.cast_pow,
    Nat.cast_ofNat, mul_div_mul_comm, powers, div_eq_mul_inv (_ / _)]

theorem zpow_le_iff {v : ℚ} (k m : ℤ) : (2 : ℚ) ^ m ≤ v ↔ (2 : ℚ) ^ (m - k) ≤ v / 2 ^ k := by
  rw [le_div_iff₀ (by positivity), ← zpow_add₀ two_ne_zero, Int.sub_add_cancel]

theorem lt_zpow_iff {v : ℚ} (k m : ℤ) : v < (2 : ℚ) ^ m ↔ v / 2 ^ k < (2 : ℚ) ^ (m - k) := by
  rw [div_lt_iff₀ (by positivity), ← zpow_add₀ two_ne_zero, Int.sub_add_cancel]

/-! ## Rounding to a whole number -/

/-- The number is at most half away from `n`, and half away only if `n` is even. -/
structure RoundsTo (v : ℚ) (n : ℕ) : Prop where
  low : n - 1 / 2 ≤ v
  high : v ≤ n + 1 / 2
  inner : n % 2 = 1 → n - 1 / 2 < v ∧ v < n + 1 / 2

theorem roundHalfEven_eq {num den n : ℕ} (hd : 0 < den) (h : RoundsTo (num / den) n) :
    roundHalfEven num den = n := by
  have hd' : (0 : ℚ) < den := Nat.cast_pos.mpr hd
  have low : 2 * (den * n) ≤ 2 * num + den := by
    have := (le_div_iff₀ hd').mp h.low
    have : (2 * (den * n) : ℚ) ≤ 2 * num + den := by linarith
    exact_mod_cast this
  have high : 2 * num ≤ 2 * (den * n) + den := by
    have := (div_le_iff₀ hd').mp h.high
    have : (2 * num : ℚ) ≤ 2 * (den * n) + den := by linarith
    exact_mod_cast this
  have inner : n % 2 = 1 → 2 * (den * n) < 2 * num + den ∧ 2 * num < 2 * (den * n) + den := by
    intro odd
    have hl := (lt_div_iff₀ hd').mp (h.inner odd).1
    have hh := (div_lt_iff₀ hd').mp (h.inner odd).2
    have hl : (2 * (den * n) : ℚ) < 2 * num + den := by linarith
    have hh : (2 * num : ℚ) < 2 * (den * n) + den := by linarith
    exact ⟨by exact_mod_cast hl, by exact_mod_cast hh⟩
  have split := Nat.div_add_mod num den
  have small := Nat.mod_lt num hd
  -- within a half, only the whole numbers on either side are left
  have near : n = num / den ∨ n = num / den + 1 := by
    have above : num / den < n + 1 := by
      refine Nat.lt_of_mul_lt_mul_left (a := den) ?_
      rw [Nat.mul_add, Nat.mul_one]
      omega
    have below : n < num / den + 2 := by
      refine Nat.lt_of_mul_lt_mul_left (a := den) ?_
      rw [Nat.mul_add]
      omega
    omega
  rw [roundHalfEven]
  rcases near with rfl | rfl
  · rw [if_pos]
    simp only [Bool.or_eq_true, Bool.and_eq_true, decide_eq_true_eq, beq_iff_eq]
    rcases Nat.mod_two_eq_zero_or_one (num / den) with even | odd
    · omega
    · have := inner odd
      omega
  · rw [Nat.mul_add, Nat.mul_one] at low high inner
    rw [if_neg]
    simp only [Bool.or_eq_true, Bool.and_eq_true, decide_eq_true_eq, beq_iff_eq]
    rcases Nat.mod_two_eq_zero_or_one (num / den) with even | odd
    · have := inner (by omega)
      omega
    · omega

/-! ## The binade of a number -/

theorem log2_bounds {n : ℕ} (hn : 0 < n) :
    (2 : ℚ) ^ (n.log2 : ℤ) ≤ n ∧ (n : ℚ) < 2 ^ ((n.log2 : ℤ) + 1) := by
  have low := Nat.log2_self_le hn.ne'
  have high := Nat.lt_log2_self (n := n)
  constructor
  · rw [zpow_natCast]
    exact_mod_cast low
  · rw [← Nat.cast_succ, zpow_natCast]
    exact_mod_cast high

/-- The scale at which the number has 53 binary digits before its point, though no scale below that
of the least double, is the one that the number is rounded at. -/
theorem exists_binade {num den : ℕ} (hn : 0 < num) (hd : 0 < den) :
    ∃ b : ℤ, (2 : ℚ) ^ (b + 52) ≤ num / den ∧ (num / den : ℚ) < 2 ^ (b + 53) ∧
      nearestMagnitude num den = (max b (-1074) + 1074).toNat * hiddenBit +
        roundHalfEven (num <<< (-max b (-1074)).toNat) (den <<< (max b (-1074)).toNat) := by
  have hd' : (0 : ℚ) < den := Nat.cast_pos.mpr hd
  obtain ⟨guess, hg⟩ : ∃ guess : ℤ, guess = (num.log2 : ℤ) - den.log2 - 52 := ⟨_, rfl⟩
  obtain ⟨num_low, num_high⟩ := log2_bounds hn
  obtain ⟨den_low, den_high⟩ := log2_bounds hd
  have low : (2 : ℚ) ^ (guess + 51) ≤ num / den := by
    rw [le_div_iff₀ hd']
    calc (2 : ℚ) ^ (guess + 51) * den ≤ 2 ^ (guess + 51) * 2 ^ ((den.log2 : ℤ) + 1) := by gcongr
      _ = 2 ^ (num.log2 : ℤ) := by
        rw [← zpow_add₀ two_ne_zero, hg]
        congr 1
        omega
      _ ≤ num := num_low
  have high : (num / den : ℚ) < 2 ^ (guess + 53) := by
    rw [div_lt_iff₀ hd']
    calc (num : ℚ) < 2 ^ ((num.log2 : ℤ) + 1) := num_high
      _ = 2 ^ (guess + 53) * 2 ^ (den.log2 : ℤ) := by
        rw [← zpow_add₀ two_ne_zero, hg]
        congr 1
        omega
      _ ≤ 2 ^ (guess + 53) * den := by gcongr
  have fits : hiddenBit * den <<< guess.toNat ≤ num <<< (-guess).toNat ↔
      (2 : ℚ) ^ (guess + 52) ≤ num / den := by
    have shifted : (0 : ℚ) < (den <<< guess.toNat : ℕ) := by
      rw [Nat.shiftLeft_eq]
      positivity
    rw [zpow_le_iff guess, ← shift_div_shift, le_div_iff₀ shifted, add_sub_cancel_left,
      ← Nat.cast_le (α := ℚ), Nat.cast_mul, hiddenBit]
    norm_num
  -- the logarithms leave two binades, and the comparison decides between them
  by_cases h : hiddenBit * den <<< guess.toNat ≤ num <<< (-guess).toNat
  · refine ⟨guess, fits.mp h, high, ?_⟩
    rw [nearestMagnitude]
    simp only [← hg, decide_eq_true h, if_true]
  · refine ⟨guess - 1, ?_, ?_, ?_⟩
    · rwa [show guess - 1 + 52 = guess + 51 by omega]
    · rw [show guess - 1 + 53 = guess + 52 by omega]
      exact not_le.mp (mt fits.mpr h)
    · rw [nearestMagnitude]
      simp only [← hg, decide_eq_false h, Bool.false_eq_true, if_false]

end SqlTree.Double
