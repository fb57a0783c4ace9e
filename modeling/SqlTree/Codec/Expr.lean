import SqlTree.Codec.Scalar
import SqlTree.Expr

/-!
# Encoded expressions

An expression is encoded as an object whose only member is named for the form of the expression and
holds its location and its parts.
-/

namespace SqlTree

open Decoder (Payload)

/-! ## Encoding -/

/-- The name of the form of an operation on one operand. -/
def UnaryOperator.tag : UnaryOperator → String
  | sign _ => "ArithmeticUnary"
  | isNull => "IsNull"
  | isNotNull => "IsNotNull"
  | not => "Not"
  | cast _ => "Cast"
  | field _ => "Dereference"

/-- The members beside the location, given the encoded operand. -/
def UnaryOperator.members (op : UnaryOperator) (operand : Json) : List (String × Json) :=
  match op with
  | sign s => [("sign", s.encode), ("value", operand)]
  | isNull | isNotNull | not => [("value", operand)]
  | cast type => [("expression", operand), ("target_type", type.encode)]
  | field name => [("base", operand), ("field_name", .ofString name)]

/-- The name of the form of an operation on two operands. -/
def BinaryOperator.tag : BinaryOperator → String
  | arithmetic _ => "ArithmeticBinary"
  | comparison _ => "Comparison"
  | logical _ => "LogicalBinary"
  | like => "Like"
  | subscript => "Subscript"

/-- The members beside the location, given the encoded operands. -/
def BinaryOperator.members (op : BinaryOperator) (left right : Json) : List (String × Json) :=
  match op with
  | arithmetic op => [("operator", op.encode), ("left", left), ("right", right)]
  | comparison op => [("operator", op.encode), ("left", left), ("right", right)]
  | logical op => [("operator", op.encode), ("left", left), ("right", right)]
  | like => [("value", left), ("pattern", right)]
  | subscript => [("base", left), ("index", right)]

/-- The name of the form of an expression. -/
def Expr.tag : Expr → String
  | literal .. => "Literal"
  | column .. => "QualifiedNameReference"
  | unary _ op _ => op.tag
  | binary _ op _ _ => op.tag
  | between .. => "Between"
  | isIn .. => "In"
  | call .. => "FunctionCall"
  | case _ (some _) .. => "SimpleCase"
  | case _ none .. => "SearchedCase"
  | list _ => "InList"
  | branch _ => "WhenClause"

/-- The object of a node: its location, then its other members. -/
def Json.located (l : Location) (members : List (String × Json)) : Json :=
  .record (("location", l.encode) :: members)

mutual

/-- What stands behind the name of the form. -/
def Expr.payload : Expr → Json
  | .literal l v => .located l [("value", v.encode)]
  | .column l n => .located l [("name", n.encode)]
  | .unary l op e => .located l (op.members (.tagged e.tag e.payload))
  | .binary l op a b => .located l (op.members (.tagged a.tag a.payload) (.tagged b.tag b.payload))
  | .between l v a b =>
    .located l [("value", .tagged v.tag v.payload), ("min", .tagged a.tag a.payload),
      ("max", .tagged b.tag b.payload)]
  | .isIn l v xs => .located l [("value", .tagged v.tag v.payload), ("value_list", xs.encode)]
  | .call l f xs => .located l [("name", f.encode), ("arguments", .array (Expr.encodeList xs))]
  | .case l o bs e =>
    .located l (Expr.operandMember o ++
      [("when_clauses", .array (Branch.encodeList bs)), ("default_value", Expr.encodeOption e)])
  | .list xs => xs.encode
  | .branch b => b.encode
termination_by structural e => e

def InList.encode : InList → Json
  | ⟨l, xs⟩ => .located l [("values", .array (Expr.encodeList xs))]
termination_by structural xs => xs

def Branch.encode : Branch → Json
  | ⟨l, c, r⟩ =>
    .located l [("operand", .tagged c.tag c.payload), ("result", .tagged r.tag r.payload)]
termination_by structural b => b

def Expr.encodeOption : Option Expr → Json
  | none => .null
  | some e => .tagged e.tag e.payload
termination_by structural e => e

/-- The operand of a `CASE`, which is no member where there is none. -/
def Expr.operandMember : Option Expr → List (String × Json)
  | none => []
  | some e => [("operand", .tagged e.tag e.payload)]
termination_by structural e => e

def Expr.encodeList : List Expr → List Json
  | [] => []
  | e :: es => .tagged e.tag e.payload :: Expr.encodeList es
termination_by structural es => es

def Branch.encodeList : List Branch → List Json
  | [] => []
  | b :: bs => b.encode :: Branch.encodeList bs
termination_by structural bs => bs

end

def Expr.encode (e : Expr) : Json := .tagged e.tag e.payload

/-! ## Decoding -/

/-- The list, if it is not empty. -/
def InList.check (xs : InList) : Except Violation InList :=
  (InList.of xs.values).map fun checked => { checked with location := xs.location }

def InList.decoderWith (expr : Decoder Expr) : Decoder InList :=
  ((InList.mk <$> Location.field <*> Fields.field "values" expr.list).checked check).decoder

def Branch.decoderWith (expr : Decoder Expr) : Decoder Branch :=
  (Branch.mk <$> Location.field <*> Fields.field "operand" expr <*>
    Fields.field "result" expr).decoder

namespace Expr

open Fields (field)

variable [Double.Reader]

/-- An operation on one operand, which stands in the member `operand`. -/
def unaryFields (expr : Decoder Expr) (op : UnaryOperator) (operand : String) : Fields Expr :=
  (fun l e => unary l op e) <$> Location.field <*> field operand expr

def binaryFields (expr : Decoder Expr) (op : Fields BinaryOperator) (left right : String) :
    Fields Expr :=
  binary <$> Location.field <*> op <*> field left expr <*> field right expr

def literalFields : Fields Expr := literal <$> Location.field <*> field "value" Literal.decoder

/-- A field access, whose field has a name. -/
def fieldFields (expr : Decoder Expr) : Fields Expr :=
  ((fun l e name => (l, e, name)) <$> Location.field <*> field "base" expr <*>
    field "field_name" Decoder.string).checked fun (l, e, name) =>
      (fieldOf e name).map (·.withLocation l)

/-- The forms of an expression, given the decoder of the expressions inside it. -/
def alternatives (expr : Decoder Expr) : List (String × Payload Expr) :=
  let operator {α : Type} (wrap : α → BinaryOperator) (d : Decoder α) : Fields BinaryOperator :=
    wrap <$> field "operator" d
  [ ("ArithmeticBinary", .value (binaryFields expr
      (operator .arithmetic ArithmeticOperator.decoder) "left" "right").decoder),
    ("ArithmeticUnary", .value ((fun l s e => unary l (.sign s) e) <$> Location.field <*>
      field "sign" Sign.decoder <*> field "value" expr).decoder),
    ("Comparison", .value (binaryFields expr
      (operator .comparison ComparisonOperator.decoder) "left" "right").decoder),
    ("LogicalBinary", .value (binaryFields expr
      (operator .logical LogicalOperator.decoder) "left" "right").decoder),
    ("Between", .value (between <$> Location.field <*> field "value" expr <*> field "min" expr <*>
      field "max" expr).decoder),
    ("In", .value (isIn <$> Location.field <*> field "value" expr <*>
      field "value_list" (InList.decoderWith expr)).decoder),
    ("InList", .value ((InList.decoderWith expr).map list)),
    ("Like", .value (binaryFields expr (.always .like) "value" "pattern").decoder),
    ("IsNull", .value (unaryFields expr .isNull "value").decoder),
    ("IsNotNull", .value (unaryFields expr .isNotNull "value").decoder),
    ("Not", .value (unaryFields expr .not "value").decoder),
    ("FunctionCall", .value (call <$> Location.field <*> field "name" Name.decoder <*>
      field "arguments" expr.list).decoder),
    ("Cast", .value ((fun l e t => unary l (.cast t) e) <$> Location.field <*>
      field "expression" expr <*> field "target_type" SqlType.decoder).decoder),
    ("Dereference", .value (fieldFields expr).decoder),
    ("Subscript", .value (binaryFields expr (.always .subscript) "base" "index").decoder),
    ("SimpleCase", .value ((fun l o bs e => case l (some o) bs e) <$> Location.field <*>
      field "operand" expr <*> field "when_clauses" (Branch.decoderWith expr).list <*>
      Fields.option "default_value" expr).decoder),
    ("SearchedCase", .value ((fun l bs e => case l none bs e) <$> Location.field <*>
      field "when_clauses" (Branch.decoderWith expr).list <*>
      Fields.option "default_value" expr).decoder),
    ("WhenClause", .value ((Branch.decoderWith expr).map branch)),
    ("QualifiedNameReference", .value (column <$> Location.field <*>
      field "name" Name.decoder).decoder),
    ("Literal", .value literalFields.decoder) ]

/-- The decoder of expressions that nest at most so many times. -/
def decoderTo : Nat → Decoder Expr
  | 0 => Decoder.fail
  | depth + 1 => Decoder.tagged (alternatives (decoderTo depth))

def decoder : Decoder Expr := decoderTo (Decoder.nesting + 1)

end Expr

variable [Double.Reader]

def InList.decoder : Decoder InList := decoderWith Expr.decoder

def Branch.decoder : Decoder Branch := decoderWith Expr.decoder

end SqlTree
