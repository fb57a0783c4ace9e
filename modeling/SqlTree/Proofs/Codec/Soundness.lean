import SqlTree.Proofs.Codec.Admitted.Node
import SqlTree.Proofs.Codec.RoundTrip

/-!
# What documents decode to

Whatever a text decodes to obeys every rule of well-formedness at every depth, and its doubles are
finite. So the decoders let nothing in that the checked constructors would refuse, and what came out
of one document can be written to another and read again. Nothing is assumed of how doubles are read
but that a double which is written is read back from its own digits.
-/

namespace SqlTree

theorem Decoder.of_decode_eq_ok {α : Type} {d : Decoder α} {text : String} {a : α}
    (h : d.decode text = .ok a) : ∃ j, d nesting j = .ok a := by
  refine ⟨(Json.read text).1, ?_⟩
  unfold decode at h
  dsimp only at h
  split at h
  case h_1 given =>
    split at h
    · rwa [← Except.ok.inj h]
    · contradiction
  case h_2 => contradiction

namespace Format

open Decoder (Admits AdmitsBehind Payload)

/-- Only valid values with finite doubles are decoded, and they are written on no more levels than
they were read from. -/
def Sound (f : Format) : Prop := f.decoder.Admits f.encode fun a => f.Valid a ∧ f.Finite a

theorem Sound.of_admits {α : Type} {encode : α → Json} {d : Decoder α} {valid finite p : α → Prop}
    (h : d.Admits encode p) (hp : ∀ a, p a → valid a ∧ finite a) :
    Sound ⟨α, encode, d, valid, finite⟩ := by
  refine Decoder.Gives.imp h ?_
  rintro levels a ⟨ha, room⟩
  exact ⟨hp a ha, room⟩

theorem plain_sound {α : Type} {encode : α → Json} {d : Decoder α}
    (h : d.Admits encode fun _ => True) : (plain encode d).Sound :=
  .of_admits h fun _ _ => ⟨trivial, trivial⟩

theorem words_sound : ∀ f ∈ words, f.Sound := by
  simp only [words, List.forall_mem_cons]
  exact ⟨plain_sound ArithmeticOperator.admitted, plain_sound Sign.admitted,
    plain_sound ComparisonOperator.admitted, plain_sound LogicalOperator.admitted,
    plain_sound JoinType.admitted, plain_sound ConnectorType.admitted,
    plain_sound Namespace.admitted, plain_sound TimeUnit.admitted, plain_sound Kind.admitted,
    List.forall_mem_nil _⟩

theorem behind_sound {α : Type} {alternatives : List (String × Payload α)} {tagOf : α → String}
    {payload : α → Json} {valid finite : α → Prop}
    (h : ∀ alternative ∈ alternatives,
      AdmitsBehind tagOf payload (fun a => valid a ∧ finite a) alternative) :
    ∀ f ∈ alternatives.flatMap (behind tagOf payload valid finite), f.Sound := by
  intro f hf
  obtain ⟨⟨tag, p⟩, hp, hf⟩ := List.mem_flatMap.mp hf
  cases p with
  | unit a => exact absurd hf List.not_mem_nil
  | value d =>
    rw [List.mem_singleton.mp hf]
    refine .of_admits (h (tag, .value d) hp) ?_
    rintro a ⟨⟨hv, finite⟩, tagged⟩
    exact ⟨⟨hv, tagged⟩, finite⟩

section Reader

variable [Double.Reader]

theorem parts_sound : ∀ f ∈ parts, f.Sound := by
  simp only [parts, List.forall_mem_cons]
  exact ⟨plain_sound Position.admitted, plain_sound Location.admitted,
    plain_sound TimeSpan.admitted, plain_sound WindowKind.admitted,
    plain_sound KsqlWindow.admitted, plain_sound Window.admitted, plain_sound Within.admitted,
    .of_admits Name.admitted fun _ valid => ⟨valid, trivial⟩,
    .of_admits SqlType.admitted fun _ valid => ⟨valid, trivial⟩,
    .of_admits StructField.admitted fun _ valid => ⟨valid, trivial⟩,
    .of_admits TableElement.admitted fun _ valid => ⟨valid, trivial⟩,
    .of_admits TableElement.admitted.list fun _ valid => ⟨valid, trivial⟩,
    .of_admits Literal.admitted fun _ h => h, .of_admits Properties.admitted fun _ h => h,
    List.forall_mem_nil _⟩

theorem families_sound : ∀ f ∈ families, f.Sound := by
  simp only [families, List.forall_mem_cons]
  exact ⟨Node.admitted, Statement.admitted, Query.admitted, Expr.admitted, InList.admitted,
    Branch.admitted, Relation.admitted, JoinCriteria.admitted, Select.admitted,
    SelectItem.admitted, GroupBy.admitted, GroupingElement.admitted, List.forall_mem_nil _⟩

theorem forms_sound : ∀ f ∈ forms, f.Sound := by
  unfold forms
  simp only [List.forall_mem_append]
  refine ⟨⟨⟨⟨?_, ?_⟩, ?_⟩, ?_⟩, ?_⟩
  · exact behind_sound (Statement.admits_alternatives Statement.admitted)
  · exact behind_sound (Expr.admits_alternatives Expr.admitted)
  · exact behind_sound (Relation.admits_alternatives Relation.admitted)
  · exact behind_sound SelectItem.admits_alternatives
  · exact behind_sound GroupingElement.admits_alternatives

theorem sound_of_mem_all : ∀ f ∈ all, f.Sound := by
  unfold all
  simp only [List.forall_mem_append]
  exact ⟨⟨⟨families_sound, forms_sound⟩, parts_sound⟩, words_sound⟩

/-! ## Texts -/

/-- Whatever a text decodes to is valid at every depth and has finite doubles, and the text that it
is written to decodes to it again, if the digits of its doubles are read back, as a reader of the
nearest doubles reads back all of them (`Json.readBack_nearest`). -/
theorem valid_of_decode {f : Format} (hf : f ∈ all) {text : String} {a : f.Carrier}
    (h : f.decoder.decode text = .ok a) :
    f.Valid a ∧ f.Finite a ∧
      ((f.encode a).ReadBack → f.decoder.decode (f.encode a).text = .ok a) := by
  obtain ⟨j, given⟩ := Decoder.of_decode_eq_ok h
  obtain ⟨⟨valid, finite⟩, room⟩ := sound_of_mem_all f hf Decoder.nesting j a given
  have restored := restored_of_mem_all f hf a valid
  refine ⟨valid, finite, fun readBack => ?_⟩
  rw [Decoder.decode_proper_text f.decoder restored.proper]
  exact restored.ok finite readBack Decoder.nesting (Nat.lt_succ_self _) room

end Reader

/-- Minus zero as a document. -/
def minusZero : Json := .number ⟨true, ['0'], some ['0'], none⟩

/-- A connector that stands in an array, as does its place, with a setting that is given twice. -/
def connectorDocument : Json :=
  .tagged "Statement" (.tagged "CreateConnector" (.array [
    Json.ofList .ofNat [3, 14],
    .ofString "c",
    .record [("rate", .tagged "Long" (.ofInt 1)), ("rate", .tagged "Double" minusZero)],
    .ofString "Sink"]))

def connector : Node :=
  .statement (.createConnector (.of 3 14) "c" ⟨[("rate", .double ⟨0x8000000000000000⟩)]⟩ .sink)

theorem connectorDocument_proper : connectorDocument.Proper := by
  simp [connectorDocument, minusZero, Json.tagged, Json.record, Json.ofString, Json.ofInt,
    Json.ofList, Json.ofNat, Json.Proper, Json.ProperMembers, Json.ProperItems,
    Numeral.ofInt_proper, Numeral.ofNat_proper, Double.zero_proper]

/-- The setting keeps its last value, and the connector comes back from its own encoding. -/
theorem valid_of_decode_connector :
    Node.decoder.decode connectorDocument.text = .ok connector ∧
    (connector.Valid ∧ connector.Finite ∧
      Node.decoder.decode connector.encode.text = .ok connector) := by
  have node : (⟨Node, Node.encode, Node.decoder, Node.Valid, Node.Finite⟩ : Format) ∈ all :=
    List.mem_append_left _ (List.mem_append_left _ (List.mem_append_left _ List.mem_cons_self))
  have decoded : Node.decoder.decode connectorDocument.text = .ok connector := by
    rw [Decoder.decode_proper_text Node.decoder connectorDocument_proper]
    rfl
  obtain ⟨valid, finite, again⟩ := valid_of_decode (a := connector) node decoded
  exact ⟨decoded, valid, finite, again (Json.readBack_nearest _)⟩

end Format

end SqlTree
