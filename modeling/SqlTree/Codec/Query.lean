import SqlTree.Codec.Expr
import SqlTree.Query

/-!
# Encoded queries

How relations, grouping clauses, selections and queries are encoded in a document and decoded from
one.
-/

namespace SqlTree

open Decoder (Payload)
open Fields (field)

variable [Double.Reader]

namespace JoinCriteria

def encode : JoinCriteria → Json
  | on condition => .tagged "On" condition.encode

def decoder : Decoder JoinCriteria := Decoder.tagged [("On", .value (Expr.decoder.map on))]

end JoinCriteria

namespace Relation

def tag : Relation → String
  | table .. => "Table"
  | aliased .. => "Aliased"
  | join .. => "Join"

/-- What stands behind the name of the form. -/
def payload : Relation → Json
  | table l name => .located l [("name", name.encode)]
  | aliased l r newName =>
    .located l [("relation", .tagged r.tag r.payload), ("alias", .ofString newName)]
  | join l type a b criteria within? =>
    .located l [("join_type", type.encode), ("left", .tagged a.tag a.payload),
      ("right", .tagged b.tag b.payload), ("criteria", criteria.encode),
      ("within", Json.ofOption Within.encode within?)]

def encode (r : Relation) : Json := .tagged r.tag r.payload

/-- A relation under another name, which is not empty. -/
def aliasedDecoder (relation : Decoder Relation) : Decoder Relation :=
  (((fun l r newName => (l, r, newName)) <$> Location.field <*> field "relation" relation <*>
    field "alias" Decoder.string).checked fun (l, r, newName) =>
      (aliasedOf r newName).map (·.withLocation l)).decoder

def joinDecoder (relation : Decoder Relation) : Decoder Relation :=
  (join <$> Location.field <*> field "join_type" JoinType.decoder <*> field "left" relation <*>
    field "right" relation <*> field "criteria" JoinCriteria.decoder <*>
    Fields.option "within" Within.decoder).decoder

/-- The forms of a relation, given the decoder of the relations inside it. -/
def alternatives (relation : Decoder Relation) : List (String × Payload Relation) := [
  ("Table", .value (table <$> Location.field <*> field "name" Name.decoder).decoder),
  ("Aliased", .value (aliasedDecoder relation)),
  ("Join", .value (joinDecoder relation))]

/-- The decoder of relations that nest at most so many times. -/
def decoderTo : Nat → Decoder Relation
  | 0 => Decoder.fail
  | depth + 1 => Decoder.tagged (alternatives (decoderTo depth))

def decoder : Decoder Relation := decoderTo (Decoder.nesting + 1)

end Relation

namespace SelectItem

def tag : SelectItem → String
  | single .. => "Single"
  | all .. => "All"

/-- What stands behind the name of the form. -/
def payload : SelectItem → Json
  | single l e newName? =>
    .located l [("expression", e.encode), ("alias", Json.ofOption Json.ofString newName?)]
  | all l qualifier? => .located l [("prefix", Json.ofOption Name.encode qualifier?)]

def encode (i : SelectItem) : Json := .tagged i.tag i.payload

def alternatives : List (String × Payload SelectItem) := [
  ("Single", .value (single <$> Location.field <*> field "expression" Expr.decoder <*>
    Fields.option "alias" Decoder.string).decoder),
  ("All", .value (all <$> Location.field <*> Fields.option "prefix" Name.decoder).decoder)]

def decoder : Decoder SelectItem := Decoder.tagged alternatives

end SelectItem

namespace Select

def encode (s : Select) : Json :=
  .located s.location [("select_items", Json.ofList SelectItem.encode s.items)]

def decoder : Decoder Select :=
  (Select.mk <$> Location.field <*> field "select_items" SelectItem.decoder.list).decoder

end Select

namespace GroupingElement

def tag : GroupingElement → String
  | simple .. => "Simple"
  | rollup .. => "Rollup"
  | cube .. => "Cube"
  | sets .. => "GroupingSets"

/-- What stands behind the name of the form. -/
def payload : GroupingElement → Json
  | simple l columns | rollup l columns | cube l columns =>
    .located l [("columns", Json.ofList Expr.encode columns)]
  | sets l ss => .located l [("sets", Json.ofList (Json.ofList Expr.encode) ss)]

def encode (g : GroupingElement) : Json := .tagged g.tag g.payload

def columnsFields (element : Location → List Expr → GroupingElement) : Fields GroupingElement :=
  element <$> Location.field <*> field "columns" Expr.decoder.list

def simpleDecoder : Decoder GroupingElement := (columnsFields simple).decoder

def rollupDecoder : Decoder GroupingElement := (columnsFields rollup).decoder

/-- A `CUBE` of few enough columns. -/
def cubeDecoder : Decoder GroupingElement :=
  (((fun l columns => (l, columns)) <$> Location.field <*>
    field "columns" Expr.decoder.list).checked fun (l, columns) =>
      (cubeOf columns).map (·.withLocation l)).decoder

def setsDecoder : Decoder GroupingElement :=
  (sets <$> Location.field <*> field "sets" Expr.decoder.list.list).decoder

def alternatives : List (String × Payload GroupingElement) := [
  ("Simple", .value simpleDecoder),
  ("Rollup", .value rollupDecoder),
  ("Cube", .value cubeDecoder),
  ("GroupingSets", .value setsDecoder)]

def decoder : Decoder GroupingElement := Decoder.tagged alternatives

end GroupingElement

namespace GroupBy

def encode (g : GroupBy) : Json :=
  .located g.location [("grouping_elements", Json.ofList GroupingElement.encode g.elements)]

def decoder : Decoder GroupBy :=
  (GroupBy.mk <$> Location.field <*>
    field "grouping_elements" GroupingElement.decoder.list).decoder

end GroupBy

namespace Query

def encode (q : Query) : Json :=
  .located q.location [("select", q.select.encode), ("from", q.source.encode),
    ("window", Json.ofOption Window.encode q.window?),
    ("where_clause", Json.ofOption Expr.encode q.filter?),
    ("group_by", Json.ofOption GroupBy.encode q.groupBy?),
    ("having", Json.ofOption Expr.encode q.having?),
    ("limit", Json.ofOption (fun n => Json.ofNat n.toNat) q.limit?)]

def decoder : Decoder Query :=
  (Query.mk <$> Location.field <*> field "select" Select.decoder <*>
    field "from" Relation.decoder <*> Fields.option "window" Window.decoder <*>
    Fields.option "where_clause" Expr.decoder <*> Fields.option "group_by" GroupBy.decoder <*>
    Fields.option "having" Expr.decoder <*> Fields.option "limit" Decoder.uint32).decoder

end Query

end SqlTree
