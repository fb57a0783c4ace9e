import SqlTree.Proofs.Codec.Reads.Node
import SqlTree.Proofs.Codec.RoundTrip

/-!
# Decoding heeds no spelling

From two documents that differ only in the order of the fields of their objects, in members that are
no fields, and in optional fields that are `null` or left out, the same is decoded: the same value
from both, or nothing from either.
-/

namespace SqlTree

namespace Decoder

variable {α : Type} {d : Decoder α}

theorem decode_of_isReadFrom {j : Json} {text : String} {a : α} (h : j.IsReadFrom text) :
    d.decode text = .ok a ↔ d nesting j = .ok a := by
  rw [decode_eq_of_isReadFrom h]

theorem Reads.respelled {s : Shape} (h : d.Reads s) {j j' : Json} (same : s.Respelled j j') :
    ∀ levels a, d levels j = .ok a ↔ d levels j' = .ok a := by
  intro levels a
  induction same with
  | refl => rfl
  | tail _ step ih => exact ih.trans (h _ _ step levels a)

end Decoder

namespace Format

open Decoder (AlternativesRead Payload)

/-! ## The shapes of all types -/

def wordShapes : List Shape := words.map fun _ => .plain

/-- Literals and properties are read whole. -/
def partShapes : List Shape := [
  Position.shape, Location.shape, TimeSpan.shape, WindowKind.shape, KsqlWindow.shape, Window.shape,
  Within.shape, Name.shape, SqlType.shape, StructField.shape, TableElement.shape,
  .list TableElement.shape, .plain, .plain]

def familyShapes : List Shape := [
  Node.shape, Statement.shape, Query.shape, Expr.shape, InList.shape, Branch.shape, Relation.shape,
  JoinCriteria.shape, Select.shape, SelectItem.shape, GroupBy.shape, GroupingElement.shape]

def formShapes : List Shape :=
  (Statement.shapes ++ Expr.shapes ++ Relation.shapes ++ SelectItem.shapes ++
    GroupingElement.shapes).map Prod.snd

/-- How each of the types is read, in the order of `all`. -/
def shapes : List Shape := familyShapes ++ formShapes ++ partShapes ++ wordShapes

/-! ## Each of them is read by its shape -/

/-- The decoder of the type reads the shape. -/
def ReadsAs (f : Format) (s : Shape) : Prop := f.decoder.Reads s

theorem words_read : List.Forall₂ ReadsAs words wordShapes :=
  List.forall₂_map_right_iff.mpr (List.forall₂_same.mpr fun _ _ => .plain)

/-- Behind every tag stands a value. -/
def Valued {α : Type} (alternatives : List (String × Payload α)) : Prop :=
  ∀ alternative ∈ alternatives, ∃ d, alternative.2 = .value d

theorem behind_read {α : Type} {alternatives : List (String × Payload α)}
    {shapes : List (String × Shape)} {tagOf : α → String} {payload : α → Json}
    {valid finite : α → Prop} (h : AlternativesRead alternatives shapes)
    (valued : Valued alternatives) :
    List.Forall₂ ReadsAs (alternatives.flatMap (behind tagOf payload valid finite))
      (shapes.map Prod.snd) := by
  induction h with
  | nil => exact .nil
  | @cons alternative shape alternatives shapes first rest ih =>
    obtain ⟨⟨d, value⟩, others⟩ := List.forall_mem_cons.mp valued
    rcases alternative with ⟨tag, p⟩
    obtain rfl : p = .value d := value
    exact .cons first.2 (ih others)

section Reader

variable [Double.Reader]

theorem parts_read : List.Forall₂ ReadsAs parts partShapes :=
  .cons Position.reads <| .cons Location.reads <| .cons TimeSpan.reads <| .cons WindowKind.reads <|
    .cons KsqlWindow.reads <| .cons Window.reads <| .cons Within.reads <| .cons Name.reads <|
    .cons SqlType.reads <| .cons StructField.reads <| .cons TableElement.reads <|
    .cons TableElement.reads.list <| .cons .plain <| .cons .plain .nil

theorem families_read : List.Forall₂ ReadsAs families familyShapes :=
  .cons Node.reads <| .cons Statement.reads <| .cons Query.reads <| .cons Expr.reads <|
    .cons InList.reads <| .cons Branch.reads <| .cons Relation.reads <| .cons JoinCriteria.reads <|
    .cons Select.reads <| .cons SelectItem.reads <| .cons GroupBy.reads <|
    .cons GroupingElement.reads .nil

theorem forms_read : List.Forall₂ ReadsAs forms formShapes := by
  unfold forms formShapes
  simp only [List.map_append]
  refine List.rel_append (List.rel_append (List.rel_append (List.rel_append ?_ ?_) ?_) ?_) ?_
  · exact behind_read (Statement.alternativesRead Statement.reads)
      (by simp [Valued, Statement.alternatives])
  · exact behind_read (Expr.alternativesRead Expr.reads) (by simp [Valued, Expr.alternatives])
  · exact behind_read (Relation.alternativesRead Relation.reads)
      (by simp [Valued, Relation.alternatives])
  · exact behind_read SelectItem.alternativesRead (by simp [Valued, SelectItem.alternatives])
  · exact behind_read GroupingElement.alternativesRead
      (by simp [Valued, GroupingElement.alternatives])

theorem all_read : List.Forall₂ ReadsAs all shapes :=
  List.rel_append (List.rel_append (List.rel_append families_read forms_read) parts_read)
    words_read

/-! ## Other spellings -/

/-- Spelling a document of any type otherwise does not change what is decoded from it. -/
theorem decode_respelled : List.Forall₂ (fun (f : Format) (s : Shape) =>
    ∀ j j', s.Respelled j j' →
      (∀ levels, (f.decoder levels j).toOption = (f.decoder levels j').toOption) ∧
      ∀ text text', j.IsReadFrom text → j'.IsReadFrom text' →
        (f.decoder.decode text).toOption = (f.decoder.decode text').toOption) all shapes := by
  refine all_read.imp fun f s reads j j' same => ⟨?_, ?_⟩
  · intro levels
    exact Except.toOption_eq_iff.mpr (Decoder.Reads.respelled reads same levels)
  · intro text text' given given'
    refine Except.toOption_eq_iff.mpr fun a => ?_
    rw [Decoder.decode_of_isReadFrom given, Decoder.decode_of_isReadFrom given']
    exact Decoder.Reads.respelled reads same Decoder.nesting a

end Reader

/-- A list of one connector with these members. The list has the array of its values for an object,
and so has its place. -/
def connectorSpelled (members : List (String × Json)) : Json :=
  .tagged "Statement" (.tagged "Statements" (.array [Json.ofList .ofNat [3, 14],
    .array [.tagged "CreateConnector" (.record members)]]))

def connectorMembers : List (String × Json) := [
  ("name", .ofString "c"),
  ("config", .record [("rate", .tagged "Long" (.ofInt 1))]),
  ("connector_type", .ofString "Sink")]

def connectorWritten : Json := connectorSpelled (("location", .null) :: connectorMembers)

/-- Without the location, in another order and with a remark. -/
def connectorRespelled : Json :=
  connectorSpelled (connectorMembers.reverse ++ [("remark", Json.ofList .ofString ["by", "hand"])])

theorem connector_respelled : Node.shape.Respelled connectorWritten connectorRespelled := by
  have inside {ms ms' : List (String × Json)}
      (step : Shape.MembersStep [("location", Location.shape), ("name", .plain), ("config", .plain),
        ("connector_type", .plain)] (Json.named ms) (Json.named ms')) :
      Node.shape.Step (connectorSpelled ms) (connectorSpelled ms') :=
    .payload [] rfl (.named (.payload [] rfl (.placed [_] [] rfl (.item [] []
      (.named (.payload [] rfl (.record step)))))))
  have dropped : Node.shape.Step connectorWritten (connectorSpelled connectorMembers) :=
    inside (.drop [] (Json.named connectorMembers) List.mem_cons_self
      (by simp [Json.named, connectorMembers]))
  have reordered : Node.shape.Step (connectorSpelled connectorMembers)
      (connectorSpelled connectorMembers.reverse) :=
    inside (.reorder (connectorMembers.reverse_perm.symm.map _))
  have added : Node.shape.Step (connectorSpelled connectorMembers.reverse) connectorRespelled :=
    inside (.add (Json.named connectorMembers.reverse) [] (by simp) rfl)
  exact .head dropped (.head reordered (.single added))

/-- The connector is decoded from either text. -/
theorem decode_respelled_connector :
    (Node.decoder.decode connectorWritten.text).toOption =
      (Node.decoder.decode connectorRespelled.text).toOption ∧
    (Node.decoder.decode connectorRespelled.text).toOption =
      some (.statement (.several (.of 3 14)
        [.createConnector .unknown "c" ⟨[("rate", .long 1)]⟩ .sink])) := by
  have written : connectorWritten.Proper := by
    simp [connectorWritten, connectorSpelled, connectorMembers, Json.tagged, Json.record,
      Json.ofString, Json.ofInt, Json.ofNat, Json.ofList, Json.Proper, Json.ProperMembers,
      Json.ProperItems, Numeral.ofInt_proper, Numeral.ofNat_proper]
  have respelled : connectorRespelled.Proper := by
    simp [connectorRespelled, connectorSpelled, connectorMembers, Json.tagged, Json.record,
      Json.ofString, Json.ofInt, Json.ofNat, Json.ofList, Json.Proper, Json.ProperMembers,
      Json.ProperItems, Numeral.ofInt_proper, Numeral.ofNat_proper]
  have node := (List.forall₂_cons.mp
    (show List.Forall₂ _ (_ :: _) (_ :: _) from decode_respelled)).1
  refine ⟨(node _ _ connector_respelled).2 _ _ written.isReadFrom respelled.isReadFrom, ?_⟩
  rw [Decoder.decode_proper_text Node.decoder respelled]
  rfl

end Format

end SqlTree
