import SqlTree.Double.Text
import SqlTree.Feed
import SqlTree.Text.Delimited
import SqlTree.Violation

/-!
# Literals

The constants of a statement. A decimal keeps its text, so that no digit is lost; the text is an
optional sign and decimal digits with at most one point among or around them.
-/

namespace SqlTree

/-- A constant. -/
inductive Literal where
  | null
  | boolean (value : Bool)
  | integer (value : Int32)
  | long (value : Int64)
  | double (value : Double)
  | decimal (text : String)
  | string (value : String)
deriving Inhabited

namespace Literal

/-- Digits, a point, digits: at most one point, and digits on one side of it at least. -/
def isDecimalBody (cs : List Char) : Bool :=
  let whole := cs.takeWhile (· ≠ '.')
  match cs.dropWhile (· ≠ '.') with
  | [] => !whole.isEmpty && whole.all Char.isDigit
  | _ :: fraction =>
    (!whole.isEmpty || !fraction.isEmpty) && whole.all Char.isDigit && fraction.all Char.isDigit

/-- Is the text that of a decimal? -/
def isDecimalText (text : String) : Bool :=
  match text.toList with
  | '-' :: cs | '+' :: cs => isDecimalBody cs
  | cs => isDecimalBody cs

/-- The checked form of `decimal`. -/
def decimalOf (text : String) : Except Violation Literal :=
  if isDecimalText text then .ok (.decimal text) else .error (.malformedDecimal text)

/-- The text of a decimal is one. -/
def Valid : Literal → Prop
  | decimal text => isDecimalText text = true
  | _ => True

def isNull : Literal → Bool
  | null => true
  | _ => false

def string? : Literal → Option String
  | string value => some value
  | _ => none

/-- The value of either kind of whole number. -/
def int? : Literal → Option Int64
  | integer value => some value.toInt64
  | long value => some value
  | _ => none

def bool? : Literal → Option Bool
  | boolean value => some value
  | _ => none

/-- The literal as it stands in a statement. -/
def text : Literal → String
  | null => "null"
  | boolean value => if value then "true" else "false"
  | integer value => toString value.toInt
  | long value => toString value.toInt
  | double value => value.sqlText
  | decimal text => text
  | string value => Text.delimited '\'' value

/-- Are the literals the same? Doubles are compared as numbers. -/
def same : Literal → Literal → Bool
  | null, null => true
  | boolean a, boolean b => a == b
  | integer a, integer b => a == b
  | long a, long b => a == b
  | double a, double b => a == b
  | decimal a, decimal b => a == b
  | string a, string b => a == b
  | _, _ => false

instance : BEq Literal := ⟨same⟩

def feed : Literal → Feed
  | null => [.number 0]
  | boolean value => .number 1 :: Feed.ofBool value
  | integer value => [.number 2, .number value.toUInt32.toNat]
  | long value => [.number 3, .number value.toUInt64.toNat]
  | double value => [.number 4, .number value.canonical.bits.toNat]
  | decimal text => [.number 5, .text text]
  | string value => [.number 6, .text value]

end Literal

end SqlTree
