import SqlTree.Double

/-!
# The fewest digits of a double

A positive finite double is the nearest double to every number of an interval around it, its
rounding interval; the ends belong to it when the significand is even. Among the decimal grids, the
multiples of a power of ten, the coarsest with a point in that interval is taken, and of its points
there the one nearest to the double. Reading that decimal gives the double back, and no decimal with
fewer digits does.
-/

namespace SqlTree.Double

/-- The number `digits * 10 ^ exponent`. -/
structure Decimal where
  digits : Nat
  exponent : Int
deriving DecidableEq, Repr, Inhabited

/-- Which of two equally near decimals is taken. -/
inductive Tie where
  | toEven
  | up
deriving DecidableEq, Repr

/-- Four times the ends and the middle of the rounding interval, in units of the double's scale. -/
structure Rounding where
  low : Nat
  middle : Nat
  high : Nat
  closed : Bool

/-- The rounding interval; below a power of two the doubles lie twice as close. -/
def rounding (d : Double) : Rounding where
  low := 4 * d.significand -
    if d.significand = hiddenBit ∧ 2 * hiddenBit ≤ d.magnitude then 1 else 2
  middle := 4 * d.significand
  high := 4 * d.significand + 2
  closed := d.significand % 2 == 0

/-- The nearest point inside the interval on the grid of multiples of `den / num`. -/
def Rounding.gridPoint? (r : Rounding) (tie : Tie) (num den : Nat) : Option Nat :=
  let below := r.middle * num / den
  let above := below + 1
  let inside (k : Nat) : Bool :=
    if r.closed then r.low * num ≤ k * den && k * den ≤ r.high * num
    else r.low * num < k * den && k * den < r.high * num
  match inside below, inside above with
  | false, false => none
  | true, false => some below
  | false, true => some above
  | true, true =>
    let gapBelow := r.middle * num - below * den
    let gapAbove := above * den - r.middle * num
    if gapBelow < gapAbove then some below
    else if gapAbove < gapBelow then some above
    else match tie with
      | .up => some above
      | .toEven => some (if below % 2 == 0 then below else above)

/-- Goes from the grid of `10 ^ exponent` to finer ones until one has a point in the interval. -/
def Rounding.coarsest (r : Rounding) (tie : Tie) (scale : Int) : Nat → Int → Decimal
  | 0, exponent => ⟨0, exponent⟩
  | fuel + 1, exponent =>
    let num := powerOfTen (-exponent).toNat <<< (scale - 2).toNat
    let den := powerOfTen exponent.toNat <<< (2 - scale).toNat
    match r.gridPoint? tie num den with
    | some digits => ⟨digits, exponent⟩
    | none => r.coarsest tie scale fuel (exponent - 1)

/-- The decimal with the fewest digits that reads back as `d`, for a positive finite `d`. -/
def shortest (d : Double) (tie : Tie) : Decimal :=
  let top : Int := (d.significand.log2 + d.scale + 1) * 30103 / 100000 + 2
  let bottom : Int := min 0 (d.scale - 2)
  d.rounding.coarsest tie d.scale ((top - bottom).toNat + 1) top

end SqlTree.Double
