import SqlTree.Codec.Query
import SqlTree.Node

/-!
# Encoded statements and nodes

How statements, and nodes of every family, are encoded in a document and decoded from one.
-/

namespace SqlTree

open Decoder (Payload)
open Fields (field)

variable [Double.Reader]

namespace Statement

def tag : Statement → String
  | several .. => "Statements"
  | create _ .stream .. => "CreateStream"
  | create _ .table .. => "CreateTable"
  | createStreamAs .. => "CreateStreamAsSelect"
  | createTableAs .. => "CreateTableAsSelect"
  | insertInto .. => "InsertInto"
  | dropTable .. => "DropTable"
  | createConnector .. => "CreateConnector"
  | query _ => "Query"

mutual

/-- What stands behind the name of the form. -/
def payload : Statement → Json
  | several l ss => .located l [("statements", .array (encodeList ss))]
  | create l _ n es i p =>
    .located l [("name", n.encode), ("elements", Json.ofList TableElement.encode es),
      ("not_exists", .bool i), ("properties", p.encode)]
  | createStreamAs l n q i p e =>
    .located l [("name", n.encode), ("query", q.encode), ("not_exists", .bool i),
      ("properties", p.encode), ("partition_by", Json.ofOption Expr.encode e)]
  | createTableAs l n q i p =>
    .located l [("name", n.encode), ("query", q.encode), ("not_exists", .bool i),
      ("properties", p.encode)]
  | insertInto l t q e =>
    .located l [("target", t.encode), ("query", q.encode),
      ("partition_by", Json.ofOption Expr.encode e)]
  | dropTable l n i d =>
    .located l [("name", n.encode), ("if_exists", .bool i), ("delete_topic", .bool d)]
  | createConnector l n p t =>
    .located l [("name", .ofString n), ("config", p.encode), ("connector_type", t.encode)]
  | query q => q.encode
termination_by structural s => s

def encodeList : List Statement → List Json
  | [] => []
  | s :: ss => .tagged s.tag s.payload :: encodeList ss
termination_by structural ss => ss

end

def encode (s : Statement) : Json := .tagged s.tag s.payload

def createDecoder (collection : Collection) : Decoder Statement :=
  ((fun l n es i p => create l collection n es i p) <$> Location.field <*>
    field "name" Name.decoder <*> field "elements" TableElement.decoder.list <*>
    field "not_exists" Decoder.bool <*> field "properties" Properties.decoder).decoder

/-- A connector, which has a name. -/
def connectorDecoder : Decoder Statement :=
  (((fun l n p t => (l, n, p, t)) <$> Location.field <*> field "name" Decoder.string <*>
    field "config" Properties.decoder <*>
    field "connector_type" ConnectorType.decoder).checked fun (l, n, p, t) =>
      (connectorOf n p t).map (·.withLocation l)).decoder

/-- The forms of a statement, given the decoder of the statements inside it. -/
def alternatives (statement : Decoder Statement) : List (String × Payload Statement) := [
  ("Statements", .value (several <$> Location.field <*>
    field "statements" statement.list).decoder),
  ("CreateStream", .value (createDecoder .stream)),
  ("CreateTable", .value (createDecoder .table)),
  ("CreateStreamAsSelect", .value (createStreamAs <$> Location.field <*>
    field "name" Name.decoder <*> field "query" Query.decoder <*>
    field "not_exists" Decoder.bool <*> field "properties" Properties.decoder <*>
    Fields.option "partition_by" Expr.decoder).decoder),
  ("CreateTableAsSelect", .value (createTableAs <$> Location.field <*>
    field "name" Name.decoder <*> field "query" Query.decoder <*>
    field "not_exists" Decoder.bool <*> field "properties" Properties.decoder).decoder),
  ("InsertInto", .value (insertInto <$> Location.field <*> field "target" Name.decoder <*>
    field "query" Query.decoder <*> Fields.option "partition_by" Expr.decoder).decoder),
  ("DropTable", .value (dropTable <$> Location.field <*> field "name" Name.decoder <*>
    field "if_exists" Decoder.bool <*> field "delete_topic" Decoder.bool).decoder),
  ("CreateConnector", .value connectorDecoder),
  ("Query", .value (Query.decoder.map query))]

/-- The decoder of statements that nest at most so many times. -/
def decoderTo : Nat → Decoder Statement
  | 0 => Decoder.fail
  | depth + 1 => Decoder.tagged (alternatives (decoderTo depth))

def decoder : Decoder Statement := decoderTo (Decoder.nesting + 1)

end Statement

namespace Node

def encode : Node → Json
  | statement s => .tagged "Statement" s.encode
  | expression e => .tagged "Expression" e.encode
  | relation r => .tagged "Relation" r.encode
  | select s => .tagged "Select" s.encode
  | selectItem i => .tagged "SelectItem" i.encode
  | groupBy g => .tagged "GroupBy" g.encode
  | groupingElement g => .tagged "GroupingElement" g.encode
  | window w => .tagged "WindowExpression" w.encode
  | ksqlWindow w => .tagged "KsqlWindowExpression" w.encode
  | within w => .tagged "WithinExpression" w.encode
  | tableElement e => .tagged "TableElement" e.encode

def decoder : Decoder Node := Decoder.tagged [
  ("Statement", .value (Statement.decoder.map statement)),
  ("Expression", .value (Expr.decoder.map expression)),
  ("Relation", .value (Relation.decoder.map relation)),
  ("Select", .value (Select.decoder.map select)),
  ("SelectItem", .value (SelectItem.decoder.map selectItem)),
  ("GroupBy", .value (GroupBy.decoder.map groupBy)),
  ("GroupingElement", .value (GroupingElement.decoder.map groupingElement)),
  ("WindowExpression", .value (Window.decoder.map window)),
  ("KsqlWindowExpression", .value (KsqlWindow.decoder.map ksqlWindow)),
  ("WithinExpression", .value (Within.decoder.map within)),
  ("TableElement", .value (TableElement.decoder.map tableElement))]

end Node

end SqlTree
