import SqlTree.Codec.Expr
import SqlTree.Proofs.Codec.Reads.Scalar

/-!
# Expressions and their spellings

How the objects of an expression are spelled does not change what is decoded, as long as it does not
for the expressions inside.
-/

namespace SqlTree

open Decoder (AlternativesRead)
open Fields (Reads)

variable {expr : Decoder Expr}

/-! ## Parts of expressions -/

theorem InList.readsWith (h : expr.Reads Expr.shape) : (decoderWith expr).Reads shape :=
  ((Location.reads_field.map InList.mk |>.seq (.field h.list nofun) (by simp)).checked
    check).decoder

theorem Branch.readsWith (h : expr.Reads Expr.shape) : (decoderWith expr).Reads shape :=
  (Location.reads_field.map Branch.mk |>.seq (.field h nofun) (by simp)
    |>.seq (.field h nofun) (by simp)).decoder

/-! ## Forms of expressions -/

namespace Expr

theorem reads_unaryFields (h : expr.Reads shape) (op : UnaryOperator) {operand : String}
    (apart : operand ≠ "location") :
    (unaryFields expr op operand).Reads [("location", Location.shape), (operand, shape)] :=
  Location.reads_field.map (fun l e => unary l op e) |>.seq (.field h nofun) (by simpa)

theorem reads_binaryFields (h : expr.Reads shape) {operator : Fields BinaryOperator}
    {fields : List (String × Shape)} {left right : String} (hop : operator.Reads fields)
    (apart : ("location" :: fields.map Prod.fst ++ [left, right]).Nodup) :
    (binaryFields expr operator left right).Reads
      (("location", Location.shape) :: fields ++ [(left, shape)] ++ [(right, shape)]) := by
  simp only [List.cons_append, List.nodup_cons, List.nodup_append, List.mem_append,
    List.mem_cons] at apart
  refine ((Location.reads_field.map binary).seq hop ?operator).seq (.field h nofun) ?left
    |>.seq (.field h nofun) ?right
  case operator => grind
  case left => grind
  case right => grind

variable [Double.Reader]

theorem alternativesRead (h : expr.Reads shape) : AlternativesRead (alternatives expr) shapes := by
  have operator {α : Type} (wrap : α → BinaryOperator) (d : Decoder α) :
      (wrap <$> Fields.field "operator" d).Reads [("operator", .plain)] :=
    (Reads.field .plain nofun).map wrap
  have branches := (Branch.readsWith h).list
  unfold alternatives shapes
  refine .cons ⟨rfl, ?arithmetic⟩ <| .cons ⟨rfl, ?sign⟩ <| .cons ⟨rfl, ?comparison⟩ <|
    .cons ⟨rfl, ?logical⟩ <| .cons ⟨rfl, ?between⟩ <| .cons ⟨rfl, ?isIn⟩ <| .cons ⟨rfl, ?list⟩ <|
    .cons ⟨rfl, ?like⟩ <| .cons ⟨rfl, ?isNull⟩ <| .cons ⟨rfl, ?isNotNull⟩ <| .cons ⟨rfl, ?not⟩ <|
    .cons ⟨rfl, ?call⟩ <| .cons ⟨rfl, ?cast⟩ <| .cons ⟨rfl, ?field⟩ <| .cons ⟨rfl, ?subscript⟩ <|
    .cons ⟨rfl, ?simpleCase⟩ <| .cons ⟨rfl, ?searchedCase⟩ <| .cons ⟨rfl, ?branch⟩ <|
    .cons ⟨rfl, ?column⟩ <| .cons ⟨rfl, ?literal⟩ .nil
  case arithmetic => exact (reads_binaryFields h (operator _ _) (by simp)).decoder
  case sign =>
    exact (Location.reads_field.map (fun l s e => unary l (.sign s) e)
      |>.seq (.field .plain nofun) (by simp) |>.seq (.field h nofun) (by simp)).decoder
  case comparison => exact (reads_binaryFields h (operator _ _) (by simp)).decoder
  case logical => exact (reads_binaryFields h (operator _ _) (by simp)).decoder
  case between =>
    exact (Location.reads_field.map between |>.seq (.field h nofun) (by simp)
      |>.seq (.field h nofun) (by simp) |>.seq (.field h nofun) (by simp)).decoder
  case isIn =>
    exact (Location.reads_field.map isIn |>.seq (.field h nofun) (by simp)
      |>.seq (.field (InList.readsWith h) nofun) (by simp)).decoder
  case list => exact (InList.readsWith h).map list
  case like =>
    have like : (binaryFields expr (.always .like) "value" "pattern").Reads _ :=
      reads_binaryFields h (Reads.always BinaryOperator.like) (by simp)
    exact like.decoder
  case isNull => exact (reads_unaryFields h .isNull (by simp)).decoder
  case isNotNull => exact (reads_unaryFields h .isNotNull (by simp)).decoder
  case not => exact (reads_unaryFields h .not (by simp)).decoder
  case call =>
    exact (Location.reads_field.map call |>.seq (.field Name.reads nofun) (by simp)
      |>.seq (.field h.list nofun) (by simp)).decoder
  case cast =>
    exact (Location.reads_field.map (fun l e t => unary l (.cast t) e)
      |>.seq (.field h nofun) (by simp) |>.seq (.field SqlType.reads nofun) (by simp)).decoder
  case field =>
    exact ((Location.reads_field.map (fun l e name => (l, e, name))
      |>.seq (.field h nofun) (by simp)
      |>.seq (.field .plain nofun) (by simp)).checked _).decoder
  case subscript =>
    have subscript : (binaryFields expr (.always .subscript) "base" "index").Reads _ :=
      reads_binaryFields h (Reads.always BinaryOperator.subscript) (by simp)
    exact subscript.decoder
  case simpleCase =>
    exact (Location.reads_field.map (fun l o bs e => case l (some o) bs e)
      |>.seq (.field h nofun) (by simp) |>.seq (.field branches nofun) (by simp)
      |>.seq (.option h) (by simp)).decoder
  case searchedCase =>
    exact (Location.reads_field.map (fun l bs e => case l none bs e)
      |>.seq (.field branches nofun) (by simp) |>.seq (.option h) (by simp)).decoder
  case branch => exact (Branch.readsWith h).map branch
  case column =>
    exact (Location.reads_field.map column |>.seq (.field Name.reads nofun) (by simp)).decoder
  case literal =>
    exact (Location.reads_field.map literal |>.seq (.field .plain nofun) (by simp)).decoder

theorem readsTo (k : Nat) : (decoderTo k).Reads shape := by
  induction k with
  | zero => exact .fail
  | succ k ih => exact (Decoder.Reads.tagged (alternativesRead ih)).named

theorem reads : decoder.Reads shape := readsTo _

end Expr

variable [Double.Reader]

theorem InList.reads : decoder.Reads shape := readsWith Expr.reads

theorem Branch.reads : decoder.Reads shape := readsWith Expr.reads

end SqlTree
