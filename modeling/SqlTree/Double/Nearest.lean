import SqlTree.Double

/-!
# The nearest double

Reading a number: of all doubles the one nearest to it, and of two equally near the one with the
even significand. A number that lies beyond all doubles has none.
-/

namespace SqlTree.Double

/-- The whole number nearest to `num / den`, the even one of two. -/
def roundHalfEven (num den : Nat) : Nat :=
  let whole := num / den
  let twice := 2 * (num % den)
  if twice < den || (twice == den && whole % 2 == 0) then whole else whole + 1

/-- The magnitude bits of the double nearest to `num / den`; they may lie beyond the finite ones. -/
def nearestMagnitude (num den : Nat) : Nat :=
  let guess : Int := (num.log2 : Int) - den.log2 - 52
  let fits (scale : Int) : Bool :=
    hiddenBit * den <<< scale.toNat ≤ num <<< (-scale).toNat
  let scale : Int := max (if fits guess then guess else guess - 1) (-1074)
  (scale + 1074).toNat * hiddenBit +
    roundHalfEven (num <<< (-scale).toNat) (den <<< scale.toNat)

/-- The double nearest to `digits * 10 ^ exponent`, if the finite doubles reach that far. -/
def nearest? (negative : Bool) (digits : Nat) (exponent : Int) : Option Double :=
  let order : Int := (Nat.toDigits 10 digits).length + exponent
  if digits = 0 || order < -330 then some (ofFields negative 0)
  else if 330 < order then none
  else
    let magnitude :=
      nearestMagnitude (digits * powerOfTen exponent.toNat) (powerOfTen (-exponent).toNat)
    if magnitude < infiniteMagnitude then some (ofFields negative magnitude) else none

theorem magnitude_ofFields (negative : Bool) {m : Nat} (h : m < signBit) :
    (ofFields negative m).magnitude = m := by
  have sign : (if negative then signBit else 0) % signBit = 0 := by cases negative <;> decide
  have fits : m + (if negative then signBit else 0) < 2 ^ 64 := by
    have twice : signBit + signBit = 2 ^ 64 := by decide
    split <;> omega
  show (UInt64.ofNat (m + if negative then signBit else 0)).toNat % signBit = m
  rw [UInt64.toNat_ofNat', Nat.mod_eq_of_lt fits, Nat.add_mod, sign, Nat.add_zero, Nat.mod_mod]
  exact Nat.mod_eq_of_lt h

theorem isFinite_ofFields (negative : Bool) {m : Nat} (h : m < infiniteMagnitude) :
    (ofFields negative m).isFinite = true := by
  rw [isFinite, magnitude_ofFields negative (Nat.lt_trans h (by decide))]
  exact decide_eq_true h

theorem isFinite_of_nearest? {negative : Bool} {digits : Nat} {exponent : Int} {d : Double}
    (h : nearest? negative digits exponent = some d) : d.isFinite = true := by
  unfold nearest? at h
  dsimp only at h
  split at h
  · rw [← Option.some_inj.mp h]
    exact isFinite_ofFields negative (by decide)
  · split at h
    · contradiction
    · split at h
      case isTrue below =>
        rw [← Option.some_inj.mp h]
        exact isFinite_ofFields negative below
      case isFalse => contradiction

end SqlTree.Double
