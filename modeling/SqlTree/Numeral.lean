/-!
# Numerals

A number as it is spelled: its sign, the digits before and after the point, and a power of ten that
it is multiplied by.
-/

namespace SqlTree

/-- A spelled number. -/
structure Numeral where
  negative : Bool
  whole : List Char
  fraction? : Option (List Char)
  exponent? : Option Int
deriving DecidableEq, Repr, Inhabited

namespace Numeral

/-- The value of decimal digits. -/
def natOfDigits (digits : List Char) : Nat :=
  digits.foldl (fun n c => 10 * n + (c.toNat - '0'.toNat)) 0

/-- The decimal digits of a number. -/
def digitsOfNat (n : Nat) : List Char := Nat.toDigits 10 n

def signText (negative : Bool) : String := if negative then "-" else ""

/-- A power of ten, always with its sign. -/
def exponentText (exponent : Int) : String :=
  "e" ++ (if exponent < 0 then "-" else "+") ++ toString exponent.natAbs

def text (n : Numeral) : String :=
  signText n.negative ++ String.ofList n.whole ++
    (match n.fraction? with
      | none => ""
      | some digits => "." ++ String.ofList digits) ++
    match n.exponent? with
      | none => ""
      | some exponent => exponentText exponent

/-- The digits without their point. -/
def digits (n : Numeral) : Nat := natOfDigits (n.whole ++ n.fraction?.getD [])

/-- The power of ten that counts the digits without their point. -/
def exponent (n : Numeral) : Int := n.exponent?.getD 0 - (n.fraction?.getD []).length

def ofNat (n : Nat) : Numeral := ⟨false, digitsOfNat n, none, none⟩

def ofInt (n : Int) : Numeral := ⟨n < 0, digitsOfNat n.natAbs, none, none⟩

/-- The whole number that is spelled without point and exponent. Zero has no sign. -/
def int? (n : Numeral) : Option Int :=
  match n.fraction?, n.exponent? with
  | none, none =>
    let value := natOfDigits n.whole
    if !n.negative then some value else if value = 0 then none else some (-value)
  | _, _ => none

/-! ## Reading -/

/-- The digits at the head of a text, and what follows them. -/
def splitDigits (cs : List Char) : List Char × List Char :=
  (cs.takeWhile Char.isDigit, cs.dropWhile Char.isDigit)

/-- A sign, perhaps, and digits: the value and what follows it. -/
def readExponent? (cs : List Char) : Option (Int × List Char) :=
  let (negative, cs) := match cs with
    | '-' :: cs => (true, cs)
    | '+' :: cs => (false, cs)
    | cs => (false, cs)
  match splitDigits cs with
  | ([], _) => none
  | (digits, rest) =>
    some (if negative then -natOfDigits digits else natOfDigits digits, rest)

/-- What follows the whole digits: perhaps a point with digits, perhaps `e` and an exponent. At
least `least` digits follow the point. -/
def readTail? (negative : Bool) (whole : List Char) (least : Nat) (cs : List Char) :
    Option (Numeral × List Char) := do
  let (fraction?, cs) ← match cs with
    | '.' :: cs =>
      let (fraction, cs) := splitDigits cs
      if fraction.length < least then none else some (some fraction, cs)
    | cs => some (none, cs)
  match cs with
  | c :: cs' =>
    if c = 'e' ∨ c = 'E' then
      let (exponent, cs') ← readExponent? cs'
      return (⟨negative, whole, fraction?, some exponent⟩, cs')
    else return (⟨negative, whole, fraction?, none⟩, cs)
  | [] => return (⟨negative, whole, fraction?, none⟩, [])

end Numeral

end SqlTree
