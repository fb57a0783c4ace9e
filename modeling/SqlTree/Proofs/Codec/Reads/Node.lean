import SqlTree.Codec.Node
import SqlTree.Proofs.Codec.Reads.Expr

/-!
# Queries, statements and nodes, and their spellings

How the objects of a query, a statement or a node of any family are spelled does not change what is
decoded.
-/

namespace SqlTree

open Decoder (AlternativesRead)

/-! ## Relations -/

theorem Relation.reads_aliasedDecoder {relation : Decoder Relation}
    (h : relation.Reads shape) : (aliasedDecoder relation).Reads
    (.located [("relation", shape), ("alias", .plain)]) :=
  ((Location.reads_field.map (fun l r newName => (l, r, newName))
    |>.seq (.field h nofun) (by simp)
    |>.seq (.field .plain nofun) (by simp)).checked _).decoder

variable [Double.Reader]

theorem JoinCriteria.reads : decoder.Reads shape := .tagged <| .cons ⟨rfl, Expr.reads.map on⟩ .nil

namespace Relation

variable {relation : Decoder Relation}

theorem reads_joinDecoder (h : relation.Reads shape) : (joinDecoder relation).Reads
    (.located [("join_type", .plain), ("left", shape), ("right", shape),
      ("criteria", JoinCriteria.shape), ("within", .option Within.shape)]) :=
  (Location.reads_field.map join |>.seq (.field .plain nofun) (by simp)
    |>.seq (.field h nofun) (by simp) |>.seq (.field h nofun) (by simp)
    |>.seq (.field JoinCriteria.reads nofun) (by simp)
    |>.seq (.option Within.reads) (by simp)).decoder

theorem alternativesRead (h : relation.Reads shape) :
    AlternativesRead (alternatives relation) shapes := by
  have table : (Relation.table <$> Location.field <*> Fields.field "name" Name.decoder).Reads _ :=
    Location.reads_field.map Relation.table |>.seq (.field Name.reads nofun) (by simp)
  exact .cons ⟨rfl, table.decoder⟩ <| .cons ⟨rfl, reads_aliasedDecoder h⟩ <|
    .cons ⟨rfl, reads_joinDecoder h⟩ .nil

theorem readsTo (k : Nat) : (decoderTo k).Reads shape := by
  induction k with
  | zero => exact .fail
  | succ k ih => exact (Decoder.Reads.tagged (alternativesRead ih)).named

theorem reads : decoder.Reads shape := readsTo _

end Relation

/-! ## Queries -/

namespace SelectItem

theorem alternativesRead : AlternativesRead alternatives shapes := by
  have single : (SelectItem.single <$> Location.field <*>
      Fields.field "expression" Expr.decoder <*> Fields.option "alias" Decoder.string).Reads _ :=
    Location.reads_field.map SelectItem.single |>.seq (.field Expr.reads nofun) (by simp)
      |>.seq (.option .plain) (by simp)
  have all : (SelectItem.all <$> Location.field <*>
      Fields.option "prefix" Name.decoder).Reads _ :=
    Location.reads_field.map SelectItem.all |>.seq (.option Name.reads) (by simp)
  exact .cons ⟨rfl, single.decoder⟩ <| .cons ⟨rfl, all.decoder⟩ .nil

theorem reads : decoder.Reads shape := .tagged alternativesRead

end SelectItem

theorem Select.reads : decoder.Reads shape :=
  (Location.reads_field.map Select.mk
    |>.seq (.field SelectItem.reads.list nofun) (by simp)).decoder

namespace GroupingElement

theorem reads_columnsFields (element : Location → List Expr → GroupingElement) :
    (columnsFields element).Reads
      [("location", Location.shape), ("columns", .list Expr.shape)] :=
  Location.reads_field.map element |>.seq (.field Expr.reads.list nofun) (by simp)

theorem reads_cubeDecoder : cubeDecoder.Reads (.located [("columns", .list Expr.shape)]) :=
  ((Location.reads_field.map (fun l columns => (l, columns))
    |>.seq (.field Expr.reads.list nofun) (by simp)).checked _).decoder

theorem reads_setsDecoder : setsDecoder.Reads (.located [("sets", .list (.list Expr.shape))]) :=
  (Location.reads_field.map sets |>.seq (.field Expr.reads.list.list nofun) (by simp)).decoder

theorem alternativesRead : AlternativesRead alternatives shapes :=
  .cons ⟨rfl, (reads_columnsFields simple).decoder⟩ <|
    .cons ⟨rfl, (reads_columnsFields rollup).decoder⟩ <| .cons ⟨rfl, reads_cubeDecoder⟩ <|
    .cons ⟨rfl, reads_setsDecoder⟩ .nil

theorem reads : decoder.Reads shape := .tagged alternativesRead

end GroupingElement

theorem GroupBy.reads : decoder.Reads shape :=
  (Location.reads_field.map GroupBy.mk
    |>.seq (.field GroupingElement.reads.list nofun) (by simp)).decoder

theorem Query.reads : decoder.Reads shape :=
  (Location.reads_field.map Query.mk |>.seq (.field Select.reads nofun) (by simp)
    |>.seq (.field Relation.reads nofun) (by simp) |>.seq (.option Window.reads) (by simp)
    |>.seq (.option Expr.reads) (by simp) |>.seq (.option GroupBy.reads) (by simp)
    |>.seq (.option Expr.reads) (by simp) |>.seq (.option .plain) (by simp)).decoder

/-! ## Statements -/

namespace Statement

theorem reads_createDecoder (collection : Collection) : (createDecoder collection).Reads
    (.located [("name", Name.shape), ("elements", .list TableElement.shape),
      ("not_exists", .plain), ("properties", .plain)]) :=
  (Location.reads_field.map (fun l n es i p => create l collection n es i p)
    |>.seq (.field Name.reads nofun) (by simp)
    |>.seq (.field TableElement.reads.list nofun) (by simp)
    |>.seq (.field .plain nofun) (by simp) |>.seq (.field .plain nofun) (by simp)).decoder

theorem reads_connectorDecoder : connectorDecoder.Reads
    (.located [("name", .plain), ("config", .plain), ("connector_type", .plain)]) :=
  ((Location.reads_field.map (fun l n p t => (l, n, p, t))
    |>.seq (.field .plain nofun) (by simp) |>.seq (.field .plain nofun) (by simp)
    |>.seq (.field .plain nofun) (by simp)).checked _).decoder

theorem alternativesRead {statement : Decoder Statement} (h : statement.Reads shape) :
    AlternativesRead (alternatives statement) shapes := by
  unfold alternatives shapes
  refine .cons ⟨rfl, ?several⟩ <| .cons ⟨rfl, reads_createDecoder .stream⟩ <|
    .cons ⟨rfl, reads_createDecoder .table⟩ <| .cons ⟨rfl, ?createStreamAs⟩ <|
    .cons ⟨rfl, ?createTableAs⟩ <| .cons ⟨rfl, ?insertInto⟩ <| .cons ⟨rfl, ?dropTable⟩ <|
    .cons ⟨rfl, reads_connectorDecoder⟩ <| .cons ⟨rfl, Query.reads.map query⟩ .nil
  case several =>
    exact (Location.reads_field.map several |>.seq (.field h.list nofun) (by simp)).decoder
  case createStreamAs =>
    exact (Location.reads_field.map createStreamAs |>.seq (.field Name.reads nofun) (by simp)
      |>.seq (.field Query.reads nofun) (by simp) |>.seq (.field .plain nofun) (by simp)
      |>.seq (.field .plain nofun) (by simp) |>.seq (.option Expr.reads) (by simp)).decoder
  case createTableAs =>
    exact (Location.reads_field.map createTableAs |>.seq (.field Name.reads nofun) (by simp)
      |>.seq (.field Query.reads nofun) (by simp) |>.seq (.field .plain nofun) (by simp)
      |>.seq (.field .plain nofun) (by simp)).decoder
  case insertInto =>
    exact (Location.reads_field.map insertInto |>.seq (.field Name.reads nofun) (by simp)
      |>.seq (.field Query.reads nofun) (by simp) |>.seq (.option Expr.reads) (by simp)).decoder
  case dropTable =>
    exact (Location.reads_field.map dropTable |>.seq (.field Name.reads nofun) (by simp)
      |>.seq (.field .plain nofun) (by simp) |>.seq (.field .plain nofun) (by simp)).decoder

theorem readsTo (k : Nat) : (decoderTo k).Reads shape := by
  induction k with
  | zero => exact .fail
  | succ k ih => exact (Decoder.Reads.tagged (alternativesRead ih)).named

theorem reads : decoder.Reads shape := readsTo _

end Statement

/-! ## Nodes -/

theorem Node.reads : decoder.Reads shape :=
  .tagged <| .cons ⟨rfl, Statement.reads.map statement⟩ <|
    .cons ⟨rfl, Expr.reads.map expression⟩ <| .cons ⟨rfl, Relation.reads.map relation⟩ <|
    .cons ⟨rfl, Select.reads.map select⟩ <| .cons ⟨rfl, SelectItem.reads.map selectItem⟩ <|
    .cons ⟨rfl, GroupBy.reads.map groupBy⟩ <|
    .cons ⟨rfl, GroupingElement.reads.map groupingElement⟩ <|
    .cons ⟨rfl, Window.reads.map window⟩ <| .cons ⟨rfl, KsqlWindow.reads.map ksqlWindow⟩ <|
    .cons ⟨rfl, Within.reads.map within⟩ <| .cons ⟨rfl, TableElement.reads.map tableElement⟩ .nil

end SqlTree
