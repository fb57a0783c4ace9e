import SqlTree.Double.Nearest
import SqlTree.Double.Shortest
import SqlTree.Numeral

/-!
# Written doubles

Two ways to write a double and one to read it. In a statement it is written without an exponent: a
whole number with all its digits and `.0`, any other with the fewest digits that read back. In an
encoded document the fewest digits are used throughout, with an exponent below `0.00001` and from
`10 ^ 16` on, and what is not finite cannot be written.
-/

namespace SqlTree.Double

namespace Decimal

/-- How many digits stand before the point; none or fewer when zeros follow the point. -/
def wholeCount (s : Decimal) : Int := (Numeral.digitsOfNat s.digits).length + s.exponent

/-- The digits before and after the point, with zeros in places without a digit. -/
def positional (s : Decimal) : List Char × List Char :=
  let digits := Numeral.digitsOfNat s.digits
  let count := s.wholeCount
  if count ≤ 0 then (['0'], List.replicate (-count).toNat '0' ++ digits)
  else if digits.length ≤ count then
    (digits ++ List.replicate (count - digits.length).toNat '0', ['0'])
  else (digits.take count.toNat, digits.drop count.toNat)

/-- The numeral of a document: positional, or, if there would be too many zeros, one digit before
the point and an exponent. -/
def numeral (s : Decimal) (negative : Bool) : Numeral :=
  let count := s.wholeCount
  if -5 < count ∧ count ≤ 16 then
    let (whole, fraction) := s.positional
    ⟨negative, whole, some fraction, none⟩
  else
    let digits := Numeral.digitsOfNat s.digits
    let fraction := digits.drop 1
    ⟨negative, digits.take 1, if fraction = [] then none else some fraction, some (count - 1)⟩

end Decimal

/-- The whole number that a finite double is, if it is one. -/
def whole? (d : Double) : Option Nat :=
  let num := d.significand <<< d.scale.toNat
  let den := 1 <<< (-d.scale).toNat
  if num % den = 0 then some (num / den) else none

/-- The double as it stands in a statement. -/
def sqlText (d : Double) : String :=
  if d.isNaN then "NaN"
  else if d.isInfinite then Numeral.signText d.isNegative ++ "inf"
  else match d.whole? with
    | some n => Numeral.signText d.isNegative ++ toString n ++ ".0"
    | none =>
      let (whole, fraction) := (d.shortest .up).positional
      Numeral.signText d.isNegative ++ String.ofList whole ++ "." ++ String.ofList fraction

/-- The double as it stands in a document, if it is finite. -/
def numeral? (d : Double) : Option Numeral :=
  if !d.isFinite then none
  else if d.isZero then some ⟨d.isNegative, ['0'], some ['0'], none⟩
  else some ((d.shortest .toEven).numeral d.isNegative)

/-- The nearest double to a numeral; `none` beyond the finite doubles. -/
def ofNumeral? (n : Numeral) : Option Double := nearest? n.negative n.digits n.exponent

/-- How doubles are read from the numerals of documents, which is up to the library that reads them:
one takes the nearest double, another, for the sake of speed, one that is close by. -/
class Reader where
  read? : Numeral → Option Double
  /-- What lies beyond the finite doubles is refused. -/
  finite {n : Numeral} {d : Double} : read? n = some d → d.isFinite = true

/-- The reader that takes the nearest double, where no other is given. -/
instance Reader.nearest : Reader where
  read? := ofNumeral?
  finite := isFinite_of_nearest?

/-- The numeral that a text is, with digits on one side of its point at least. -/
def readNumeral? (negative : Bool) (cs : List Char) : Option Numeral :=
  let (whole, cs) := Numeral.splitDigits cs
  match Numeral.readTail? negative whole (if whole = [] then 1 else 0) cs with
  | some (n, []) => if n.whole = [] ∧ n.fraction? = none then none else some n
  | _ => none

/-- The double that a text spells: a number, rounded to the nearest double or to an infinity, or one
of `NaN`, `inf` and `-inf`. -/
def ofText? (text : String) : Option Double :=
  let (negative, cs) := match text.toList with
    | '-' :: cs => (true, cs)
    | '+' :: cs => (false, cs)
    | cs => (false, cs)
  if cs = "NaN".toList then some nan
  else if cs = "inf".toList then some (infinity negative)
  else (readNumeral? negative cs).map fun n => (ofNumeral? n).getD (infinity negative)

end SqlTree.Double
