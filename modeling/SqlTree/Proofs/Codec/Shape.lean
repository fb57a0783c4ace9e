import Mathlib.Logic.Relation
import SqlTree.Json

/-!
# Shapes of documents and their spellings

The shape of a document says which of its objects are read by the names of their members. There the
order of the members is of no account, members of other names are passed over, and an optional
member may be left out instead of being `null`; whatever else stands in a document counts. Where the
values of the members stand in an array instead, each has its place, but objects inside them are
read as elsewhere. Two documents that differ only in what is of no account spell the same thing.
-/

namespace SqlTree

/-- The types whose values hold values of the same type. -/
inductive Family where
  | type
  | expression
  | relation
  | statement

/-- How documents of a type are read. -/
inductive Shape where
  /-- Nothing in the document is read as an object with named fields. -/
  | plain
  | option (s : Shape)
  | list (s : Shape)
  /-- A tag, with what stands behind it. -/
  | tagged (alternatives : List (String × Shape))
  /-- An object with named fields, of which those that are optional may be missing; or the array of
  the values of all fields, in this order. -/
  | record (fields : List (String × Shape))
  | named (family : Family)

/-! ## The shapes of the types -/

namespace Position

def shape : Shape := .record [("line", .plain), ("column", .plain)]

end Position

namespace Location

def shape : Shape := .option Position.shape

end Location

/-- The object of a node: its location, then its other fields. -/
def Shape.located (fields : List (String × Shape)) : Shape :=
  .record (("location", Location.shape) :: fields)

namespace Name

def shape : Shape := .record [("parts", .list .plain)]

end Name

namespace TimeSpan

def shape : Shape := .record [("size", .plain), ("unit", .plain)]

end TimeSpan

namespace SqlType

def shape : Shape := .named .type

end SqlType

namespace StructField

def shape : Shape := .record [("name", .plain), ("field_type", SqlType.shape)]

end StructField

namespace SqlType

def shapes : List (String × Shape) := [
  ("Boolean", .plain),
  ("Integer", .plain),
  ("Bigint", .plain),
  ("Double", .plain),
  ("String", .plain),
  ("Decimal", .record [("precision", .plain), ("scale", .plain)]),
  ("Array", shape),
  ("Map", shape),
  ("Struct", .list StructField.shape)]

end SqlType

namespace TableElement

def shape : Shape :=
  .located [("namespace", .plain), ("name", .plain), ("element_type", SqlType.shape)]

end TableElement

namespace WindowKind

def shape : Shape := .tagged [
  ("Tumbling", .record [("size", TimeSpan.shape)]),
  ("Hopping", .record [("size", TimeSpan.shape), ("advance_by", TimeSpan.shape)]),
  ("Session", .record [("gap", TimeSpan.shape)])]

end WindowKind

namespace KsqlWindow

def shape : Shape := .located [("kind", WindowKind.shape)]

end KsqlWindow

namespace Window

def shape : Shape := .located [("window_name", .option .plain), ("window", KsqlWindow.shape)]

end Window

namespace Within

def shape : Shape := .located [("before", TimeSpan.shape), ("after", TimeSpan.shape)]

end Within

namespace Expr

def shape : Shape := .named .expression

end Expr

namespace InList

def shape : Shape := .located [("values", .list Expr.shape)]

end InList

namespace Branch

def shape : Shape := .located [("operand", Expr.shape), ("result", Expr.shape)]

end Branch

namespace Expr

/-- The words for operators and signs, and literals, are read whole. -/
def shapes : List (String × Shape) := [
  ("ArithmeticBinary", .located [("operator", .plain), ("left", shape), ("right", shape)]),
  ("ArithmeticUnary", .located [("sign", .plain), ("value", shape)]),
  ("Comparison", .located [("operator", .plain), ("left", shape), ("right", shape)]),
  ("LogicalBinary", .located [("operator", .plain), ("left", shape), ("right", shape)]),
  ("Between", .located [("value", shape), ("min", shape), ("max", shape)]),
  ("In", .located [("value", shape), ("value_list", InList.shape)]),
  ("InList", InList.shape),
  ("Like", .located [("value", shape), ("pattern", shape)]),
  ("IsNull", .located [("value", shape)]),
  ("IsNotNull", .located [("value", shape)]),
  ("Not", .located [("value", shape)]),
  ("FunctionCall", .located [("name", Name.shape), ("arguments", .list shape)]),
  ("Cast", .located [("expression", shape), ("target_type", SqlType.shape)]),
  ("Dereference", .located [("base", shape), ("field_name", .plain)]),
  ("Subscript", .located [("base", shape), ("index", shape)]),
  ("SimpleCase", .located [("operand", shape), ("when_clauses", .list Branch.shape),
    ("default_value", .option shape)]),
  ("SearchedCase", .located [("when_clauses", .list Branch.shape),
    ("default_value", .option shape)]),
  ("WhenClause", Branch.shape),
  ("QualifiedNameReference", .located [("name", Name.shape)]),
  ("Literal", .located [("value", .plain)])]

end Expr

namespace JoinCriteria

def shape : Shape := .tagged [("On", Expr.shape)]

end JoinCriteria

namespace Relation

def shape : Shape := .named .relation

def shapes : List (String × Shape) := [
  ("Table", .located [("name", Name.shape)]),
  ("Aliased", .located [("relation", shape), ("alias", .plain)]),
  ("Join", .located [("join_type", .plain), ("left", shape), ("right", shape),
    ("criteria", JoinCriteria.shape), ("within", .option Within.shape)])]

end Relation

namespace SelectItem

def shapes : List (String × Shape) := [
  ("Single", .located [("expression", Expr.shape), ("alias", .option .plain)]),
  ("All", .located [("prefix", .option Name.shape)])]

def shape : Shape := .tagged shapes

end SelectItem

namespace Select

def shape : Shape := .located [("select_items", .list SelectItem.shape)]

end Select

namespace GroupingElement

def shapes : List (String × Shape) := [
  ("Simple", .located [("columns", .list Expr.shape)]),
  ("Rollup", .located [("columns", .list Expr.shape)]),
  ("Cube", .located [("columns", .list Expr.shape)]),
  ("GroupingSets", .located [("sets", .list (.list Expr.shape))])]

def shape : Shape := .tagged shapes

end GroupingElement

namespace GroupBy

def shape : Shape := .located [("grouping_elements", .list GroupingElement.shape)]

end GroupBy

namespace Query

def shape : Shape :=
  .located [("select", Select.shape), ("from", Relation.shape), ("window", .option Window.shape),
    ("where_clause", .option Expr.shape), ("group_by", .option GroupBy.shape),
    ("having", .option Expr.shape), ("limit", .option .plain)]

end Query

namespace Statement

def shape : Shape := .named .statement

/-- Properties, like flags, are read whole: every member of their object counts. -/
def shapes : List (String × Shape) := [
  ("Statements", .located [("statements", .list shape)]),
  ("CreateStream", .located [("name", Name.shape), ("elements", .list TableElement.shape),
    ("not_exists", .plain), ("properties", .plain)]),
  ("CreateTable", .located [("name", Name.shape), ("elements", .list TableElement.shape),
    ("not_exists", .plain), ("properties", .plain)]),
  ("CreateStreamAsSelect", .located [("name", Name.shape), ("query", Query.shape),
    ("not_exists", .plain), ("properties", .plain), ("partition_by", .option Expr.shape)]),
  ("CreateTableAsSelect", .located [("name", Name.shape), ("query", Query.shape),
    ("not_exists", .plain), ("properties", .plain)]),
  ("InsertInto", .located [("target", Name.shape), ("query", Query.shape),
    ("partition_by", .option Expr.shape)]),
  ("DropTable", .located [("name", Name.shape), ("if_exists", .plain),
    ("delete_topic", .plain)]),
  ("CreateConnector", .located [("name", .plain), ("config", .plain),
    ("connector_type", .plain)]),
  ("Query", Query.shape)]

end Statement

namespace Node

def shape : Shape := .tagged [
  ("Statement", Statement.shape),
  ("Expression", Expr.shape),
  ("Relation", Relation.shape),
  ("Select", Select.shape),
  ("SelectItem", SelectItem.shape),
  ("GroupBy", GroupBy.shape),
  ("GroupingElement", GroupingElement.shape),
  ("WindowExpression", Window.shape),
  ("KsqlWindowExpression", KsqlWindow.shape),
  ("WithinExpression", Within.shape),
  ("TableElement", TableElement.shape)]

end Node

/-- What the name of a family stands for. -/
def Family.shape : Family → Shape
  | type => .tagged SqlType.shapes
  | expression => .tagged Expr.shapes
  | relation => .tagged Relation.shapes
  | statement => .tagged Statement.shapes

/-! ## Spelling otherwise -/

namespace Shape

mutual

/-- One step of spelling a document of the shape otherwise. -/
inductive Step : Shape → Json → Json → Prop
  | option {s : Shape} {j j' : Json} : Step s j j' → Step (.option s) j j'
  | item {s : Shape} {j j' : Json} (before after : List Json) : Step s j j' →
      Step (.list s) (.array (before ++ j :: after)) (.array (before ++ j' :: after))
  | payload {alternatives : List (String × Shape)} {tag : String} {s : Shape} {j j' : Json}
      (others : List (JsonText × Json)) : alternatives.lookup tag = some s → Step s j j' →
      Step (.tagged alternatives) (.object ((.plain tag, j) :: others))
        (.object ((.plain tag, j') :: others))
  | record {fields : List (String × Shape)} {ms ms' : List (JsonText × Json)} :
      MembersStep fields ms ms' → Step (.record fields) (.object ms) (.object ms')
  /-- Inside the value of a field that has its place in an array. -/
  | placed {fields : List (String × Shape)} {name : String} {s : Shape} {j j' : Json}
      (before after : List Json) : fields[before.length]? = some (name, s) → Step s j j' →
      Step (.record fields) (.array (before ++ j :: after)) (.array (before ++ j' :: after))
  | named {family : Family} {j j' : Json} : Step family.shape j j' → Step (.named family) j j'

/-- One step of spelling the members of an object with these fields otherwise. -/
inductive MembersStep : List (String × Shape) → List (JsonText × Json) → List (JsonText × Json) →
    Prop
  /-- Inside the value of a field. -/
  | value {fields : List (String × Shape)} {name : String} {s : Shape} {j j' : Json}
      (before after : List (JsonText × Json)) : (name, s) ∈ fields → Step s j j' →
      MembersStep fields (before ++ (.plain name, j) :: after)
        (before ++ (.plain name, j') :: after)
  | reorder {fields : List (String × Shape)} {ms ms' : List (JsonText × Json)} : ms.Perm ms' →
      MembersStep fields ms ms'
  /-- Another member, of a name that is no field's. -/
  | add {fields : List (String × Shape)} {name : String} {j : Json}
      (before after : List (JsonText × Json)) : name ∉ fields.map Prod.fst → j.isWhole = true →
      MembersStep fields (before ++ after) (before ++ (.plain name, j) :: after)
  /-- An optional field goes that is `null` and is not given a second time. -/
  | drop {fields : List (String × Shape)} {name : String} {s : Shape}
      (before after : List (JsonText × Json)) : (name, .option s) ∈ fields →
      (∀ m ∈ before ++ after, m.1 ≠ .plain name) →
      MembersStep fields (before ++ (.plain name, .null) :: after) (before ++ after)

end

/-- Any number of steps. -/
def Respelled (s : Shape) : Json → Json → Prop := Relation.ReflTransGen s.Step

/-- The value `null` cannot be spelled otherwise. -/
theorem Step.ne_null : ∀ {s : Shape} {j j' : Json}, s.Step j j' → j ≠ .null ∧ j' ≠ .null
  | _, _, _, .option h => h.ne_null
  | _, _, _, .item _ _ _ => ⟨Json.noConfusion, Json.noConfusion⟩
  | _, _, _, .payload _ _ _ => ⟨Json.noConfusion, Json.noConfusion⟩
  | _, _, _, .record _ => ⟨Json.noConfusion, Json.noConfusion⟩
  | _, _, _, .placed _ _ _ _ => ⟨Json.noConfusion, Json.noConfusion⟩
  | _, _, _, .named h => h.ne_null

end Shape

end SqlTree
