/-!
# Doubles

Binary floating-point numbers of 64 bits, held as their bits: one sign bit, eleven bits of exponent
and fifty-two of fraction. A finite double is `significand * 2 ^ scale`, up to its sign. Two doubles
count as the same when they are equal as numbers, and all not-a-numbers are the same.
-/

namespace SqlTree

/-- A 64-bit floating-point number. -/
structure Double where
  bits : UInt64
deriving Repr, Inhabited

namespace Double

/-- The bit of the sign. -/
def signBit : Nat := 0x8000000000000000

/-- The bits of the fraction are those below this one, which the significand has and the bits leave
out. -/
def hiddenBit : Nat := 0x10000000000000

/-- The magnitude bits of the infinities; those of every finite double are below. -/
def infiniteMagnitude : Nat := 0x7FF0000000000000

/-- The power `10 ^ n`. -/
def powerOfTen (n : Nat) : Nat := Nat.pow 10 n

/-- The double with these fields of its bits. -/
def ofFields (negative : Bool) (magnitude : Nat) : Double :=
  ⟨.ofNat (magnitude + if negative then signBit else 0)⟩

def zero : Double := ofFields false 0

/-- One not-a-number, to stand for all. -/
def nan : Double := ofFields false (infiniteMagnitude + hiddenBit / 2)

def infinity (negative : Bool) : Double := ofFields negative infiniteMagnitude

def isNegative (d : Double) : Bool := signBit ≤ d.bits.toNat

/-- All bits but the sign. -/
def magnitude (d : Double) : Nat := d.bits.toNat % signBit

def isNaN (d : Double) : Bool := infiniteMagnitude < d.magnitude

def isInfinite (d : Double) : Bool := d.magnitude == infiniteMagnitude

def isFinite (d : Double) : Bool := d.magnitude < infiniteMagnitude

/-- Zero, with either sign. -/
def isZero (d : Double) : Bool := d.magnitude == 0

/-- The significand of a finite double. -/
def significand (d : Double) : Nat :=
  if d.magnitude < hiddenBit then d.magnitude else d.magnitude % hiddenBit + hiddenBit

/-- The power of two that the significand of a finite double counts. -/
def scale (d : Double) : Int := ((max 1 (d.magnitude / hiddenBit) : Nat) : Int) - 1075

/-- Equal as numbers, or both not a number. -/
def same (a b : Double) : Bool :=
  if a.isNaN || b.isNaN then a.isNaN && b.isNaN
  else a.bits == b.bits || a.isZero && b.isZero

instance : BEq Double := ⟨same⟩

/-- The one double that stands for all that are the same as `d`. -/
def canonical (d : Double) : Double :=
  if d.isNaN then nan else if d.isZero then zero else d

end Double

end SqlTree
