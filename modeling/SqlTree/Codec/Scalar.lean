import SqlTree.Json.Decoder
import SqlTree.Json.Text
import SqlTree.Kind
import SqlTree.Location
import SqlTree.Name
import SqlTree.Properties
import SqlTree.TableElement
import SqlTree.Window

/-!
# Encoded parts

How names, types, literals, properties, spans of time, windows and column declarations are encoded
in a document and decoded from one. What is decoded obeys the rules of well-formedness.
-/

namespace SqlTree

open Decoder (Payload)

namespace Position

def encode (p : Position) : Json :=
  .record [("line", .ofNat p.line.toNat), ("column", .ofNat p.column.toNat)]

def decoder : Decoder Position :=
  (Position.mk <$> Fields.field "line" Decoder.uint64 <*>
    Fields.field "column" Decoder.uint64).decoder

end Position

namespace Location

def encode (l : Location) : Json := Json.ofOption Position.encode l.position?

def decoder : Decoder Location := Position.decoder.option.map Location.mk

/-- The location of a node, which may be missing. -/
def field : Fields Location := Location.mk <$> Fields.option "location" Position.decoder

end Location

namespace Name

def encode (n : Name) : Json := .record [("parts", Json.ofList Json.ofString n.parts)]

def decoder : Decoder Name :=
  (Fields.field "parts" Decoder.string.list).checked of |>.decoder

end Name

namespace ArithmeticOperator

def encode (op : ArithmeticOperator) : Json := .ofString op.name

def decoder : Decoder ArithmeticOperator := Decoder.oneOf all name

end ArithmeticOperator

namespace Sign

def encode (s : Sign) : Json := .ofString s.name

def decoder : Decoder Sign := Decoder.oneOf all name

end Sign

namespace ComparisonOperator

def encode (op : ComparisonOperator) : Json := .ofString op.name

def decoder : Decoder ComparisonOperator := Decoder.oneOf all name

end ComparisonOperator

namespace LogicalOperator

def encode (op : LogicalOperator) : Json := .ofString op.name

def decoder : Decoder LogicalOperator := Decoder.oneOf all name

end LogicalOperator

namespace JoinType

def encode (t : JoinType) : Json := .ofString t.name

def decoder : Decoder JoinType := Decoder.oneOf all name

end JoinType

namespace ConnectorType

def encode (t : ConnectorType) : Json := .ofString t.name

def decoder : Decoder ConnectorType := Decoder.oneOf all name

end ConnectorType

namespace Namespace

def encode (n : Namespace) : Json := .ofString n.name

def decoder : Decoder Namespace := Decoder.oneOf all name

end Namespace

namespace Kind

def encode (k : Kind) : Json := .ofString k.name

def decoder : Decoder Kind := Decoder.oneOf all name

end Kind

namespace TimeUnit

def encode (u : TimeUnit) : Json := .ofString u.name

def decoder : Decoder TimeUnit := Decoder.oneOf all name

end TimeUnit

namespace TimeSpan

def encode (s : TimeSpan) : Json :=
  .record [("size", .ofNat s.size.toNat), ("unit", s.unit.encode)]

def decoder : Decoder TimeSpan :=
  (TimeSpan.mk <$> Fields.field "size" Decoder.uint64 <*>
    Fields.field "unit" TimeUnit.decoder).decoder

end TimeSpan

namespace SqlType

mutual

def encode : SqlType → Json
  | boolean => .ofString "Boolean"
  | integer => .ofString "Integer"
  | bigint => .ofString "Bigint"
  | double => .ofString "Double"
  | string => .ofString "String"
  | decimal precision scale =>
    .tagged "Decimal"
      (.record [("precision", .ofNat precision.toNat), ("scale", .ofNat scale.toNat)])
  | array element => .tagged "Array" element.encode
  | map value => .tagged "Map" value.encode
  | struct fields => .tagged "Struct" (.array (encodeFields fields))
termination_by structural t => t

def encodeFields : List StructField → List Json
  | [] => []
  | ⟨name, type⟩ :: fields =>
    .record [("name", .ofString name), ("field_type", type.encode)] :: encodeFields fields
termination_by structural fields => fields

end

/-- The type, if it is no `DECIMAL` that breaks the rules. -/
def check : SqlType → Except Violation SqlType
  | decimal precision scale => decimalOf precision scale
  | t => .ok t

end SqlType

/-- The decoder of struct fields, given that of types. -/
def StructField.decoderWith (type : Decoder SqlType) : Decoder StructField :=
  (StructField.mk <$> Fields.field "name" Decoder.string <*> Fields.field "field_type" type).decoder

namespace SqlType

/-- The forms of a type, given the decoder of the types inside it. -/
def alternatives (type : Decoder SqlType) : List (String × Payload SqlType) := [
  ("Boolean", .unit boolean),
  ("Integer", .unit integer),
  ("Bigint", .unit bigint),
  ("Double", .unit double),
  ("String", .unit string),
  ("Decimal", .value (decimal <$> Fields.field "precision" Decoder.uint32 <*>
    Fields.field "scale" Decoder.uint32).decoder),
  ("Array", .value (type.map array)),
  ("Map", .value (type.map map)),
  ("Struct", .value ((StructField.decoderWith type).list.map struct))]

/-- The decoder of types that nest at most so many times. -/
def decoderTo : Nat → Decoder SqlType
  | 0 => Decoder.fail
  | depth + 1 => (Decoder.tagged (alternatives (decoderTo depth))).checked check

def decoder : Decoder SqlType := decoderTo (Decoder.nesting + 1)

end SqlType

namespace StructField

def encode (f : StructField) : Json :=
  .record [("name", .ofString f.name), ("field_type", f.type.encode)]

def decoder : Decoder StructField := decoderWith SqlType.decoder

end StructField

namespace Literal

/-- A double that is not finite becomes `null`. -/
def encode : Literal → Json
  | null => .ofString "Null"
  | boolean b => .tagged "Boolean" (.bool b)
  | integer n => .tagged "Integer" (.ofInt n.toInt)
  | long n => .tagged "Long" (.ofInt n.toInt)
  | double d => .tagged "Double" (match d.numeral? with
    | some n => .number n
    | none => .null)
  | decimal text => .tagged "Decimal" (.ofString text)
  | string s => .tagged "String" (.ofString s)

/-- The literal, if it is no decimal with another text. -/
def check : Literal → Except Violation Literal
  | decimal text => decimalOf text
  | v => .ok v

variable [Double.Reader]

def alternatives : List (String × Payload Literal) := [
  ("Null", .unit null),
  ("Boolean", .value (Decoder.bool.map boolean)),
  ("Integer", .value (Decoder.int32.map integer)),
  ("Long", .value (Decoder.int64.map long)),
  ("Double", .value (Decoder.double.map double)),
  ("Decimal", .value (Decoder.string.map decimal)),
  ("String", .value (Decoder.string.map string))]

def decoder : Decoder Literal := (Decoder.tagged alternatives).checked check

end Literal

namespace Properties

def encode (p : Properties) : Json :=
  .record (p.entries.map fun (key, value) => (key, value.encode))

variable [Double.Reader]

/-- Sets the members of an object one after the other. -/
def decodeMembers (levels : Nat) :
    List (JsonText × Json) → Properties → Except DecodeError Properties
  | [], p => .ok p
  | (.unpaired, _) :: _, _ => .error .shape
  | (.plain key, j) :: members, p => do
    decodeMembers levels members (p.insert key (← Literal.decoder levels j))

def decoder : Decoder Properties
  | levels + 1, .object members => decodeMembers levels members empty
  | _, _ => .error .shape

end Properties

namespace TableElement

def encode (e : TableElement) : Json :=
  .record [("location", e.location.encode), ("namespace", e.role.encode),
    ("name", .ofString e.name), ("element_type", e.type.encode)]

/-- The declaration, if it breaks no rule. -/
def check (e : TableElement) : Except Violation TableElement :=
  (of e.role e.name e.type).map fun checked => { checked with location := e.location }

def decoder : Decoder TableElement :=
  (TableElement.mk <$> Location.field <*> Fields.field "namespace" Namespace.decoder <*>
    Fields.field "name" Decoder.string <*>
    Fields.field "element_type" SqlType.decoder).checked check |>.decoder

end TableElement

namespace WindowKind

def encode : WindowKind → Json
  | tumbling size => .tagged "Tumbling" (.record [("size", size.encode)])
  | hopping size advance =>
    .tagged "Hopping" (.record [("size", size.encode), ("advance_by", advance.encode)])
  | session gap => .tagged "Session" (.record [("gap", gap.encode)])

def decoder : Decoder WindowKind := Decoder.tagged [
  ("Tumbling", .value (tumbling <$> Fields.field "size" TimeSpan.decoder).decoder),
  ("Hopping", .value (hopping <$> Fields.field "size" TimeSpan.decoder <*>
    Fields.field "advance_by" TimeSpan.decoder).decoder),
  ("Session", .value (session <$> Fields.field "gap" TimeSpan.decoder).decoder)]

end WindowKind

namespace KsqlWindow

def encode (w : KsqlWindow) : Json :=
  .record [("location", w.location.encode), ("kind", w.kind.encode)]

def decoder : Decoder KsqlWindow :=
  (KsqlWindow.mk <$> Location.field <*> Fields.field "kind" WindowKind.decoder).decoder

end KsqlWindow

namespace Window

def encode (w : Window) : Json :=
  .record [("location", w.location.encode), ("window_name", Json.ofOption Json.ofString w.name?),
    ("window", w.window.encode)]

def decoder : Decoder Window :=
  (Window.mk <$> Location.field <*> Fields.option "window_name" Decoder.string <*>
    Fields.field "window" KsqlWindow.decoder).decoder

end Window

namespace Within

def encode (w : Within) : Json :=
  .record [("location", w.location.encode), ("before", w.before.encode), ("after", w.after.encode)]

def decoder : Decoder Within :=
  (Within.mk <$> Location.field <*> Fields.field "before" TimeSpan.decoder <*>
    Fields.field "after" TimeSpan.decoder).decoder

end Within

end SqlTree
