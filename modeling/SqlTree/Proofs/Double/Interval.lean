import SqlTree.Proofs.Double.Nearest

/-!
# The rounding interval

A finite double but zero is the nearest to every number of its rounding interval. The interval is
given in quarters of the double's unit; reading any number of it gives the double.
-/

namespace SqlTree.Double

variable {d : Double} {v : ℚ}

/-! ## The fields of a finite double -/

theorem cast_hiddenBit : (hiddenBit : ℚ) = 2 ^ 52 := by norm_num [hiddenBit]

theorem ofFields_eq (d : Double) : ofFields d.isNegative d.magnitude = d := by
  have small : d.bits.toNat < 2 * signBit := d.bits.toNat_lt
  have bits : d.magnitude + (if d.isNegative = true then signBit else 0) = d.bits.toNat := by
    by_cases h : signBit ≤ d.bits.toNat
    · have negative : d.isNegative = true := decide_eq_true h
      rw [if_pos negative, magnitude, Nat.mod_eq_sub_mod h, Nat.mod_eq_of_lt (by omega)]
      omega
    · rw [if_neg (by simpa [isNegative] using h), magnitude, Nat.mod_eq_of_lt (by omega),
        Nat.add_zero]
  rw [ofFields, bits, UInt64.ofNat_toNat]

theorem significand_lt (d : Double) : d.significand < 2 * hiddenBit := by
  rw [significand]
  have := Nat.mod_lt d.magnitude (by decide : 0 < hiddenBit)
  split <;> omega

theorem significand_pos (hz : d.isZero = false) : 0 < d.significand := by
  have : d.magnitude ≠ 0 := fun h => by
    rw [isZero, h] at hz
    contradiction
  rw [significand]
  have : 0 < hiddenBit := by decide
  split <;> omega

theorem le_scale (d : Double) : -1074 ≤ d.scale := by
  rw [scale]
  omega

theorem scale_le (hd : d.isFinite = true) : d.scale ≤ 971 := by
  have finite : d.magnitude < infiniteMagnitude := of_decide_eq_true hd
  have : d.magnitude / hiddenBit < 2047 := Nat.div_lt_of_lt_mul finite
  rw [scale]
  omega

/-- Above the least scale the significand has its hidden bit. -/
theorem hiddenBit_le_significand (h : -1074 < d.scale) : hiddenBit ≤ d.significand := by
  have : ¬ d.magnitude < hiddenBit := fun small => by
    rw [scale, Nat.div_eq_of_lt small] at h
    contradiction
  rw [significand, if_neg this]
  exact Nat.le_add_left _ _

theorem magnitude_eq (d : Double) :
    d.magnitude = (d.scale + 1074).toNat * hiddenBit + d.significand := by
  rw [scale, significand]
  by_cases small : d.magnitude < hiddenBit
  · rw [if_pos small, Nat.div_eq_of_lt small]
    simp
  · have whole := Nat.div_add_mod d.magnitude hiddenBit
    have pos : 1 ≤ d.magnitude / hiddenBit :=
      Nat.div_pos (Nat.le_of_not_lt small) (by decide : 0 < hiddenBit)
    have unit : (((max 1 (d.magnitude / hiddenBit) : ℕ) : ℤ) - 1075 + 1074).toNat =
        d.magnitude / hiddenBit - 1 := by omega
    rw [if_neg small, unit, Nat.sub_mul, Nat.one_mul]
    have := Nat.mul_le_mul_right hiddenBit pos
    rw [Nat.mul_comm] at whole
    omega

/-! ## Numbers of the interval -/

/-- The number, in quarters of the unit, lies in the interval. -/
structure Rounding.Holds (r : Rounding) (v : ℚ) : Prop where
  low : r.low ≤ v
  high : v ≤ r.high
  inner : r.closed = false → r.low < v ∧ v < r.high

/-- The number lies in the rounding interval of the double. -/
def Rounds (d : Double) (v : ℚ) : Prop := d.rounding.Holds (v / 2 ^ (d.scale - 2))

theorem div_zpow_add (v : ℚ) (k n : ℤ) : v / 2 ^ (k + n) = v / 2 ^ k / 2 ^ n := by
  rw [zpow_add₀ two_ne_zero, div_mul_eq_div_div]

theorem le_low (d : Double) : (4 * d.significand - 2 : ℚ) ≤ d.rounding.low := by
  have : 4 * d.significand ≤ d.rounding.low + 2 := by
    unfold rounding
    dsimp only
    split <;> omega
  have : (4 * d.significand : ℚ) ≤ d.rounding.low + 2 := by exact_mod_cast this
  linarith

theorem high_eq (d : Double) : (d.rounding.high : ℚ) = 4 * d.significand + 2 := by
  simp [rounding]

/-- At the scale of the double the numbers of its interval are rounded to its significand. -/
theorem Rounds.roundsTo (h : d.Rounds v) : RoundsTo (v / 2 ^ d.scale) d.significand := by
  have low := h.low
  have high := h.high
  have le_low := d.le_low
  have quarter : v / 2 ^ d.scale = v / 2 ^ (d.scale - 2) / 4 := by
    have split := div_zpow_add v (d.scale - 2) 2
    rw [Int.sub_add_cancel] at split
    rw [split]
    norm_num
  rw [high_eq] at high
  rw [quarter]
  refine ⟨by linarith, by linarith, ?_⟩
  intro odd
  have opened : d.rounding.closed = false := by simp [rounding, odd]
  obtain ⟨low, high⟩ := h.inner opened
  rw [high_eq] at high
  exact ⟨by linarith, by linarith⟩

/-- No number of the interval reaches the binade above. -/
theorem Rounds.lt (h : d.Rounds v) : v < 2 ^ (d.scale + 53) := by
  have most : (d.significand : ℚ) ≤ 2 * hiddenBit - 1 := by
    have := d.significand_lt
    have : d.significand + 1 ≤ 2 * hiddenBit := by omega
    have : (d.significand + 1 : ℚ) ≤ 2 * hiddenBit := by exact_mod_cast this
    linarith
  have high := h.high
  rw [high_eq] at high
  rw [lt_zpow_iff (d.scale - 2), show d.scale + 53 - (d.scale - 2) = (55 : ℕ) by omega,
    zpow_natCast]
  rw [cast_hiddenBit] at most
  linarith

/-- A number of the interval that lies below the binade of the double is within a quarter of a power
of two. -/
theorem Rounds.of_lt (h : d.Rounds v) (hs : -1074 < d.scale) (lt : v < 2 ^ (d.scale + 52)) :
    d.significand = hiddenBit ∧ (4 * hiddenBit - 1 : ℚ) ≤ v / 2 ^ (d.scale - 2) := by
  have least := hiddenBit_le_significand hs
  have low := h.low
  have below := d.le_low
  rw [lt_zpow_iff (d.scale - 2), show d.scale + 52 - (d.scale - 2) = (54 : ℕ) by omega,
    zpow_natCast] at lt
  have significand : d.significand = hiddenBit := by
    have : (d.significand : ℚ) < hiddenBit + 1 := by
      rw [cast_hiddenBit]
      linarith
    have : d.significand < hiddenBit + 1 := by exact_mod_cast this
    omega
  refine ⟨significand, ?_⟩
  have many : 2 * hiddenBit ≤ d.magnitude := by
    have := d.magnitude_eq
    have : 1 * hiddenBit ≤ (d.scale + 1074).toNat * hiddenBit :=
      Nat.mul_le_mul_right hiddenBit (by omega)
    omega
  have nearer : d.rounding.low = 4 * hiddenBit - 1 := by
    rw [rounding, significand]
    simp only [many, and_self, if_true]
  rw [nearer, Nat.cast_sub (by decide), Nat.cast_mul] at low
  exact_mod_cast low

/-- Reading a number of the rounding interval gives the double. -/
theorem nearestMagnitude_eq {num den : ℕ} (hn : 0 < num) (hd : 0 < den)
    (h : d.Rounds (num / den)) : nearestMagnitude num den = d.magnitude := by
  obtain ⟨b, low, high, eq⟩ := exists_binade hn hd
  have shifted : 0 < den <<< (max b (-1074)).toNat := by
    rw [Nat.shiftLeft_eq]
    positivity
  have least := d.le_scale
  have top : b ≤ d.scale := by
    have : (2 : ℚ) ^ (b + 52) < 2 ^ (d.scale + 53) := lt_of_le_of_lt low h.lt
    have := (zpow_lt_zpow_iff_right₀ one_lt_two).mp this
    omega
  rw [eq, d.magnitude_eq]
  -- the number lies in the binade of the double or, close to a power of two, in the one below
  by_cases same : max b (-1074) = d.scale
  · rw [same] at shifted ⊢
    rw [roundHalfEven_eq shifted]
    rw [shift_div_shift]
    exact h.roundsTo
  · have above : -1074 < d.scale := by omega
    have lt : (num / den : ℚ) < 2 ^ (d.scale + 52) :=
      lt_of_lt_of_le high (zpow_le_zpow_right₀ one_le_two (by omega))
    obtain ⟨significand, near⟩ := h.of_lt above lt
    have next : max b (-1074) = d.scale - 1 := by
      have : (2 : ℚ) ^ (53 : ℤ) < num / den / 2 ^ (d.scale - 2) := by
        refine lt_of_lt_of_le ?_ near
        rw [cast_hiddenBit]
        norm_num
      have : (2 : ℚ) ^ (d.scale + 51) < 2 ^ (b + 53) := by
        refine lt_of_le_of_lt ?_ high
        rw [zpow_le_iff (d.scale - 2), show d.scale + 51 - (d.scale - 2) = 53 by omega]
        exact this.le
      have := (zpow_lt_zpow_iff_right₀ one_lt_two).mp this
      omega
    -- just below a power of two the unit is half as large, and rounding carries into the power
    have rounded : RoundsTo (num / den / 2 ^ (d.scale - 1)) (2 * hiddenBit) := by
      have half : (num / den / 2 ^ (d.scale - 1) : ℚ) = num / den / 2 ^ (d.scale - 2) / 2 := by
        rw [show d.scale - 1 = d.scale - 2 + 1 by omega, div_zpow_add, zpow_one]
      rw [lt_zpow_iff (d.scale - 2), show d.scale + 52 - (d.scale - 2) = (54 : ℕ) by omega,
        zpow_natCast] at lt
      rw [half]
      rw [cast_hiddenBit] at near
      refine ⟨?_, ?_, fun odd => absurd odd (by decide)⟩
      · rw [Nat.cast_mul, cast_hiddenBit]
        push_cast
        linarith
      · rw [Nat.cast_mul, cast_hiddenBit]
        push_cast
        linarith
    rw [next] at shifted ⊢
    rw [roundHalfEven_eq shifted (by rwa [shift_div_shift]), significand,
      show (d.scale + 1074).toNat = (d.scale - 1 + 1074).toNat + 1 by omega, Nat.add_mul]
    omega

/-! ## Reading a number of the interval -/

theorem Rounds.le (hz : d.isZero = false) (h : d.Rounds v) : 2 ^ (d.scale - 1) ≤ v := by
  have least : (1 : ℚ) ≤ d.significand := by exact_mod_cast significand_pos hz
  have low := h.low
  have below := d.le_low
  rw [zpow_le_iff (d.scale - 2), show d.scale - 1 - (d.scale - 2) = (1 : ℕ) by omega, zpow_natCast]
  linarith

theorem Rounds.digits_pos (hz : d.isZero = false) {digits : ℕ} {exponent : ℤ}
    (h : d.Rounds (digits * 10 ^ exponent)) : 0 < digits := by
  rcases Nat.eq_zero_or_pos digits with rfl | pos
  · have low := h.le hz
    rw [Nat.cast_zero, zero_mul] at low
    exact absurd low (not_le.mpr (by positivity))
  · exact pos

theorem digits_bounds {n : ℕ} (hn : 0 < n) :
    (10 : ℚ) ^ (((Nat.toDigits 10 n).length : ℤ) - 1) ≤ n ∧
      (n : ℚ) < 10 ^ ((Nat.toDigits 10 n).length : ℤ) := by
  obtain ⟨l, hl⟩ : ∃ l, (Nat.toDigits 10 n).length = l + 1 :=
    Nat.exists_eq_add_one.mpr Nat.length_toDigits_pos
  have high : n < 10 ^ (l + 1) :=
    (Nat.length_toDigits_le_iff (by decide) (Nat.succ_pos l)).mp (Nat.le_of_eq hl)
  have low : 10 ^ l ≤ n := by
    rcases l with _ | l
    · exact hn
    · apply Nat.le_of_not_lt
      intro small
      have := (Nat.length_toDigits_le_iff (by decide) (Nat.succ_pos l)).mpr small
      omega
  rw [hl, Nat.cast_succ, add_sub_cancel_right, ← Nat.cast_succ, zpow_natCast, zpow_natCast]
  exact ⟨by exact_mod_cast low, by exact_mod_cast high⟩

theorem powerOfTen_eq (n : ℕ) : powerOfTen n = 10 ^ n := rfl

theorem powerOfTen_pos (n : ℕ) : 0 < powerOfTen n := Nat.pow_pos (by decide)

theorem cast_powerOfTen_div (exponent : ℤ) :
    (powerOfTen exponent.toNat : ℚ) / powerOfTen (-exponent).toNat = 10 ^ exponent := by
  have powers := pow_toNat_div (b := 10) (by decide) exponent
  exact_mod_cast powers

theorem two_pow_lt_ten_pow : 2 ^ 1075 < 10 ^ 330 := by decide +kernel

theorem two_zpow_lt_ten_zpow : (2 : ℚ) ^ (1075 : ℤ) < 10 ^ (330 : ℤ) := by
  exact_mod_cast two_pow_lt_ten_pow

/-- A decimal in the rounding interval of a double is read as the double. -/
theorem nearest?_eq (hd : d.isFinite = true) (hz : d.isZero = false) {digits : ℕ} {exponent : ℤ}
    (h : d.Rounds (digits * 10 ^ exponent)) :
    nearest? d.isNegative digits exponent = some d := by
  have low := h.le hz
  have high := h.lt
  have some_digits := h.digits_pos hz
  obtain ⟨fewest, most⟩ := digits_bounds some_digits
  obtain ⟨order, ho⟩ : ∃ order : ℤ, order = (Nat.toDigits 10 digits).length + exponent := ⟨_, rfl⟩
  have not_tiny : ¬ order < -330 := by
    intro tiny
    have bound : (2 : ℚ) ^ (-1075 : ℤ) < 10 ^ (-330 : ℤ) :=
      calc (2 : ℚ) ^ (-1075 : ℤ) ≤ 2 ^ (d.scale - 1) :=
            zpow_le_zpow_right₀ one_le_two (by have := d.le_scale; omega)
        _ ≤ digits * 10 ^ exponent := low
        _ < 10 ^ ((Nat.toDigits 10 digits).length : ℤ) * 10 ^ exponent := by gcongr
        _ = 10 ^ order := by rw [← zpow_add₀ (by norm_num), ho]
        _ ≤ 10 ^ (-330 : ℤ) := zpow_le_zpow_right₀ (by norm_num) (by omega)
    rw [zpow_neg, zpow_neg, inv_lt_inv₀ (by positivity) (by positivity)] at bound
    exact lt_asymm bound two_zpow_lt_ten_zpow
  have not_huge : ¬ 330 < order := by
    intro huge
    have bound : (10 : ℚ) ^ (330 : ℤ) < 2 ^ (1075 : ℤ) :=
      calc (10 : ℚ) ^ (330 : ℤ) ≤ 10 ^ (order - 1) := zpow_le_zpow_right₀ (by norm_num) (by omega)
        _ = 10 ^ (((Nat.toDigits 10 digits).length : ℤ) - 1) * 10 ^ exponent := by
          rw [← zpow_add₀ (by norm_num), ho]
          congr 1
          omega
        _ ≤ digits * 10 ^ exponent := by gcongr
        _ < 2 ^ (d.scale + 53) := high
        _ ≤ 2 ^ (1075 : ℤ) := zpow_le_zpow_right₀ one_le_two (by have := scale_le hd; omega)
    exact lt_asymm bound two_zpow_lt_ten_zpow
  have quotient : ((digits * powerOfTen exponent.toNat : ℕ) : ℚ) /
      (powerOfTen (-exponent).toNat : ℕ) = digits * 10 ^ exponent := by
    rw [Nat.cast_mul, mul_div_assoc, cast_powerOfTen_div]
  have magnitude : nearestMagnitude (digits * powerOfTen exponent.toNat)
      (powerOfTen (-exponent).toNat) = d.magnitude :=
    nearestMagnitude_eq (Nat.mul_pos some_digits (powerOfTen_pos _)) (powerOfTen_pos _)
      (by rwa [quotient])
  have finite : d.magnitude < infiniteMagnitude := of_decide_eq_true hd
  rw [nearest?]
  simp only [← ho, magnitude, finite, not_tiny, not_huge, some_digits.ne', decide_false,
    Bool.or_self, Bool.false_eq_true, if_true, if_false, ofFields_eq]

end SqlTree.Double
