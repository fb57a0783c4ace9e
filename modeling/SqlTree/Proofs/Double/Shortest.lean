import SqlTree.Proofs.Double.Interval

/-!
# The fewest digits read back

The search for the coarsest grid with a point in the rounding interval ends at the latest on the
grid that the double itself is a point of. The point that it finds lies in the interval, so reading
it gives the double back.
-/

namespace SqlTree.Double

variable {r : Rounding} {tie : Tie} {num den k : ℕ} {scale : ℤ}

/-! ## Points of one grid -/

theorem Rounding.holds_of_inside (hn : 0 < num)
    (h : (if r.closed then (r.low * num ≤ k * den && k * den ≤ r.high * num : Bool)
      else r.low * num < k * den && k * den < r.high * num) = true) :
    r.Holds (k * den / num) := by
  have hn' : (0 : ℚ) < num := Nat.cast_pos.mpr hn
  have low_le (h : r.low * num ≤ k * den) : (r.low : ℚ) ≤ k * den / num := by
    rw [le_div_iff₀ hn']
    exact_mod_cast h
  have le_high (h : k * den ≤ r.high * num) : (k * den / num : ℚ) ≤ r.high := by
    rw [div_le_iff₀ hn']
    exact_mod_cast h
  cases closed : r.closed with
  | true =>
    rw [if_pos closed, Bool.and_eq_true, decide_eq_true_iff, decide_eq_true_iff] at h
    refine ⟨low_le h.1, le_high h.2, ?_⟩
    intro opened
    rw [closed] at opened
    contradiction
  | false =>
    rw [if_neg (by simp [closed]), Bool.and_eq_true, decide_eq_true_iff, decide_eq_true_iff] at h
    refine ⟨low_le h.1.le, le_high h.2.le, fun _ => ⟨?_, ?_⟩⟩
    · rw [lt_div_iff₀ hn']
      exact_mod_cast h.1
    · rw [div_lt_iff₀ hn']
      exact_mod_cast h.2

/-- A point that the search takes lies in the interval. -/
theorem Rounding.gridPoint?_holds (hn : 0 < num) (h : r.gridPoint? tie num den = some k) :
    r.Holds (k * den / num) := by
  apply holds_of_inside hn
  unfold gridPoint? at h
  dsimp only at h
  split at h
  · contradiction
  · rename_i below _
    rwa [Option.some_inj.mp h] at below
  · rename_i _ above
    rwa [Option.some_inj.mp h] at above
  · rename_i below above
    split at h
    · rwa [Option.some_inj.mp h] at below
    · split at h
      · rwa [Option.some_inj.mp h] at above
      · cases tie with
        | up => rwa [Option.some_inj.mp h] at above
        | toEven =>
          dsimp only at h
          split at h
          · rwa [Option.some_inj.mp h] at below
          · rwa [Option.some_inj.mp h] at above

/-- If the middle of the interval is a point of the grid, the search takes a point. -/
theorem Rounding.exists_gridPoint (hn : 0 < num) (low : r.low < r.middle) (high : r.middle < r.high)
    (exact_point : den ∣ r.middle * num) : ∃ k, r.gridPoint? tie num den = some k := by
  have middle : r.middle * num / den * den = r.middle * num := Nat.div_mul_cancel exact_point
  have above : r.low * num < r.middle * num := Nat.mul_lt_mul_of_pos_right low hn
  have below : r.middle * num < r.high * num := Nat.mul_lt_mul_of_pos_right high hn
  have inside : (if r.closed then
      (r.low * num ≤ r.middle * num / den * den && r.middle * num / den * den ≤ r.high * num : Bool)
      else r.low * num < r.middle * num / den * den && r.middle * num / den * den < r.high * num) =
      true := by
    rw [middle]
    split
    · rw [decide_eq_true above.le, decide_eq_true below.le]
      rfl
    · rw [decide_eq_true above, decide_eq_true below]
      rfl
  unfold gridPoint?
  dsimp only
  rw [inside]
  split
  · contradiction
  · exact ⟨_, rfl⟩
  · contradiction
  · split
    · exact ⟨_, rfl⟩
    · split
      · exact ⟨_, rfl⟩
      · cases tie <;> exact ⟨_, rfl⟩

/-! ## The search -/

/-- The number that the decimal stands for. -/
def Decimal.value (s : Decimal) : ℚ := s.digits * 10 ^ s.exponent

/-- How many points of the grid of `10 ^ exponent` make up a quarter of the unit, as a fraction. -/
def gridNum (scale exponent : ℤ) : ℕ := powerOfTen (-exponent).toNat <<< (scale - 2).toNat

def gridDen (scale exponent : ℤ) : ℕ := powerOfTen exponent.toNat <<< (2 - scale).toNat

theorem gridNum_pos (scale exponent : ℤ) : 0 < gridNum scale exponent := by
  rw [gridNum, Nat.shiftLeft_eq]
  exact Nat.mul_pos (powerOfTen_pos _) (Nat.pow_pos (by decide))

theorem mul_gridDen_div (k : ℕ) (scale exponent : ℤ) :
    (k * gridDen scale exponent / gridNum scale exponent : ℚ) =
      k * 10 ^ exponent / 2 ^ (scale - 2) := by
  have shifted := shift_div_shift (powerOfTen exponent.toNat) (powerOfTen (-exponent).toNat)
    (scale - 2)
  rw [cast_powerOfTen_div, neg_sub] at shifted
  rw [mul_div_assoc, gridDen, gridNum, shifted, mul_div_assoc]

theorem Rounding.coarsest_succ (r : Rounding) (tie : Tie) (scale : ℤ) (fuel : ℕ) (exponent : ℤ) :
    r.coarsest tie scale (fuel + 1) exponent =
      match r.gridPoint? tie (gridNum scale exponent) (gridDen scale exponent) with
      | some digits => ⟨digits, exponent⟩
      | none => r.coarsest tie scale fuel (exponent - 1) := rfl

/-- A search that reaches a grid with a point finds a point of the interval. -/
theorem Rounding.coarsest_holds {bottom : ℤ}
    (last : ∃ k, r.gridPoint? tie (gridNum scale bottom) (gridDen scale bottom) = some k) :
    ∀ {fuel : ℕ} {exponent : ℤ}, bottom ≤ exponent → exponent < bottom + fuel →
      r.Holds ((r.coarsest tie scale fuel exponent).value / 2 ^ (scale - 2))
  | 0, exponent, above, below => by omega
  | fuel + 1, exponent, above, below => by
    rw [coarsest_succ]
    cases point : r.gridPoint? tie (gridNum scale exponent) (gridDen scale exponent) with
    | some digits =>
      have := gridPoint?_holds (gridNum_pos scale exponent) point
      rwa [mul_gridDen_div] at this
    | none =>
      -- the finest grid has a point, so there is one left to go to
      have further : exponent ≠ bottom := by
        rintro rfl
        obtain ⟨k, hk⟩ := last
        rw [point] at hk
        contradiction
      exact coarsest_holds last (by omega) (by omega)

/-! ## The search of a double -/

/-- The double itself is a point of the finest grid. -/
theorem gridDen_dvd (n : ℕ) (scale : ℤ) :
    gridDen scale (min 0 (scale - 2)) ∣ n * gridNum scale (min 0 (scale - 2)) := by
  apply Dvd.dvd.mul_left
  rw [gridDen, gridNum, Nat.shiftLeft_eq, Nat.shiftLeft_eq, powerOfTen_eq, powerOfTen_eq,
    Int.toNat_eq_zero.mpr (by omega : min 0 (scale - 2) ≤ 0), Nat.pow_zero, Nat.one_mul]
  apply Dvd.dvd.mul_right
  rw [show (2 - scale).toNat = (-min 0 (scale - 2)).toNat by omega]
  exact pow_dvd_pow_of_dvd (by decide : 2 ∣ 10) _

theorem rounds_shortest (tie : Tie) {d : Double} (hz : d.isZero = false) :
    d.Rounds (d.shortest tie).value := by
  have pos := significand_pos hz
  have low : d.rounding.low < d.rounding.middle := by
    unfold rounding
    dsimp only
    split <;> omega
  have high : d.rounding.middle < d.rounding.high := Nat.lt_add_of_pos_right (by decide)
  have last : ∃ k, d.rounding.gridPoint? tie _ _ = some k :=
    Rounding.exists_gridPoint (gridNum_pos d.scale _) low high
      (gridDen_dvd d.rounding.middle d.scale)
  rw [Rounds, shortest]
  exact Rounding.coarsest_holds last (by omega) (by omega)

end SqlTree.Double
