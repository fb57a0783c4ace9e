import SqlTree.Proofs.Codec.Node
import SqlTree.Proofs.Lookup

/-!
# Encoding and decoding again

Everything that has a place in a document, from the words for operators to whole nodes, comes back
as it was when the text of its encoding is decoded, as long as the digits of its doubles are read
back. Only a double that is not finite is lost on the way, and then there is nothing that the text
decodes to.
-/

namespace SqlTree

/-! ## Documents and their texts -/

/-- The text is the document and nothing more. -/
def Json.IsReadFrom (j : Json) (text : String) : Prop :=
  (read text).1 = j ∧ Reader.skipBlanks (read text).2 = []

theorem Json.IsReadFrom.of_read {j : Json} {text : String} {rest : List Char}
    (h : read text = (j, rest)) (blank : Reader.skipBlanks rest = []) : j.IsReadFrom text := by
  rw [IsReadFrom, h]
  exact ⟨rfl, blank⟩

theorem Json.Proper.isReadFrom {j : Json} (hj : j.Proper) : j.IsReadFrom j.text :=
  .of_read (read_text hj) rfl

/-- Whoever reads the nearest doubles reads back the digits of all of them. -/
theorem Json.readBack_nearest (j : Json) : @ReadBack .nearest j :=
  fun _ _ _ written => Double.ofNumeral?_numeral? written

/-- What is decoded from a text, and why a text is refused, is up to the document. -/
theorem Decoder.decode_eq_of_isReadFrom {α : Type} {d : Decoder α} {j : Json} {text : String}
    (h : j.IsReadFrom text) : d.decode text = d nesting j := by
  unfold decode
  dsimp only
  rw [h.1]
  cases d nesting j with
  | ok a => exact if_pos h.2
  | error e => rfl

theorem Decoder.decode_proper_text {α : Type} (d : Decoder α) {j : Json} (hj : j.Proper) :
    d.decode j.text = d nesting j := decode_eq_of_isReadFrom hj.isReadFrom

/-! ## What documents hold -/

/-- A type of values that documents hold. -/
structure Format where
  Carrier : Type
  encode : Carrier → Json
  decoder : Decoder Carrier
  /-- Every rule of well-formedness holds of the value. -/
  Valid : Carrier → Prop
  /-- None of the doubles in the value is infinite or not a number. -/
  Finite : Carrier → Prop

namespace Format

open Decoder (Payload Restores)

/-- A type without rules and without doubles. -/
def plain {α : Type} (encode : α → Json) (decoder : Decoder α) : Format :=
  ⟨α, encode, decoder, fun _ => True, fun _ => True⟩

/-- What stands behind a tag is a type of its own, if anything stands there. -/
def behind {α : Type} (tagOf : α → String) (payload : α → Json) (valid finite : α → Prop) :
    String × Payload α → List Format
  | (_, .unit _) => []
  | (tag, .value d) => [⟨α, payload, d, fun a => valid a ∧ tagOf a = tag, finite⟩]

section Reader

variable [Double.Reader]

def words : List Format := [
  plain ArithmeticOperator.encode ArithmeticOperator.decoder,
  plain Sign.encode Sign.decoder,
  plain ComparisonOperator.encode ComparisonOperator.decoder,
  plain LogicalOperator.encode LogicalOperator.decoder,
  plain JoinType.encode JoinType.decoder,
  plain ConnectorType.encode ConnectorType.decoder,
  plain Namespace.encode Namespace.decoder,
  plain TimeUnit.encode TimeUnit.decoder,
  plain Kind.encode Kind.decoder]

def parts : List Format := [
  plain Position.encode Position.decoder,
  plain Location.encode Location.decoder,
  plain TimeSpan.encode TimeSpan.decoder,
  plain WindowKind.encode WindowKind.decoder,
  plain KsqlWindow.encode KsqlWindow.decoder,
  plain Window.encode Window.decoder,
  plain Within.encode Within.decoder,
  ⟨Name, Name.encode, Name.decoder, Name.Valid, fun _ => True⟩,
  ⟨SqlType, SqlType.encode, SqlType.decoder, SqlType.Valid, fun _ => True⟩,
  ⟨StructField, StructField.encode, StructField.decoder, StructField.Valid, fun _ => True⟩,
  ⟨TableElement, TableElement.encode, TableElement.decoder, TableElement.Valid, fun _ => True⟩,
  ⟨List TableElement, Json.ofList TableElement.encode, TableElement.decoder.list,
    fun es => ∀ e ∈ es, e.Valid, fun _ => True⟩,
  ⟨Literal, Literal.encode, Literal.decoder, Literal.Valid, Literal.Finite⟩,
  ⟨Properties, Properties.encode, Properties.decoder, Properties.Valid, Properties.Finite⟩]

def families : List Format := [
  ⟨Node, Node.encode, Node.decoder, Node.Valid, Node.Finite⟩,
  ⟨Statement, Statement.encode, Statement.decoder, Statement.Valid, Statement.Finite⟩,
  ⟨Query, Query.encode, Query.decoder, Query.Valid, Query.Finite⟩,
  ⟨Expr, Expr.encode, Expr.decoder, Expr.Valid, Expr.Finite⟩,
  ⟨InList, InList.encode, InList.decoder, InList.Valid, InList.Finite⟩,
  ⟨Branch, Branch.encode, Branch.decoder, Branch.Valid, Branch.Finite⟩,
  ⟨Relation, Relation.encode, Relation.decoder, Relation.Valid, Relation.Finite⟩,
  ⟨JoinCriteria, JoinCriteria.encode, JoinCriteria.decoder, JoinCriteria.Valid,
    JoinCriteria.Finite⟩,
  ⟨Select, Select.encode, Select.decoder, Select.Valid, Select.Finite⟩,
  ⟨SelectItem, SelectItem.encode, SelectItem.decoder, SelectItem.Valid, SelectItem.Finite⟩,
  ⟨GroupBy, GroupBy.encode, GroupBy.decoder, GroupBy.Valid, GroupBy.Finite⟩,
  ⟨GroupingElement, GroupingElement.encode, GroupingElement.decoder, GroupingElement.Valid,
    GroupingElement.Finite⟩]

/-- The single forms of the families. -/
def forms : List Format :=
  (Statement.alternatives Statement.decoder).flatMap
    (behind Statement.tag Statement.payload Statement.Valid Statement.Finite) ++
  (Expr.alternatives Expr.decoder).flatMap
    (behind Expr.tag Expr.payload Expr.Valid Expr.Finite) ++
  (Relation.alternatives Relation.decoder).flatMap
    (behind Relation.tag Relation.payload Relation.Valid Relation.Finite) ++
  SelectItem.alternatives.flatMap
    (behind SelectItem.tag SelectItem.payload SelectItem.Valid SelectItem.Finite) ++
  GroupingElement.alternatives.flatMap
    (behind GroupingElement.tag GroupingElement.payload GroupingElement.Valid
      GroupingElement.Finite)

/-- All types of values that documents hold. -/
def all : List Format := families ++ forms ++ parts ++ words

/-! ## Each of them is restored -/

/-- On all levels that there are, the valid values are restored. -/
def Restored (f : Format) : Prop :=
  ∀ a, f.Valid a → f.decoder.Restores (Decoder.nesting + 1) (f.encode a) a (f.Finite a)

theorem words_restored : ∀ f ∈ words, f.Restored := by
  simp only [words, List.forall_mem_cons]
  exact ⟨fun a _ => a.restores, fun a _ => a.restores, fun a _ => a.restores,
    fun a _ => a.restores, fun a _ => a.restores, fun a _ => a.restores, fun a _ => a.restores,
    fun a _ => a.restores, fun a _ => a.restores, nofun⟩

theorem parts_restored : ∀ f ∈ parts, f.Restored := by
  have all := Nat.le_refl (Decoder.nesting + 1)
  simp only [parts, List.forall_mem_cons]
  refine ⟨fun a _ => a.restores, fun a _ => a.restores, fun a _ => a.restores,
    fun a _ => a.restores, fun a _ => a.restores, fun a _ => a.restores, fun a _ => a.restores,
    fun _ hv => Name.restores hv, fun _ hv => SqlType.restores hv all,
    fun _ hv => StructField.restores hv all, fun _ hv => TableElement.restores hv all,
    fun es hv => ?_, fun _ hv => Literal.restores hv, fun _ hv => Properties.restores hv, nofun⟩
  have list : TableElement.decoder.list.Restores _ (Json.ofList TableElement.encode es) es
      (∀ e ∈ es, True) := .list fun e he => TableElement.restores (hv e he) all
  exact list.congr (by simp)

theorem families_restored : ∀ f ∈ families, f.Restored := by
  have all := Nat.le_refl (Decoder.nesting + 1)
  simp only [families, List.forall_mem_cons]
  exact ⟨fun _ hv => Node.restores hv all, fun _ hv => Statement.restores hv all,
    fun _ hv => Query.restores hv all, fun _ hv => Expr.restores hv all,
    fun _ hv => InList.restores hv all, fun _ hv => Branch.restores hv all,
    fun _ hv => Relation.restores hv all, fun _ hv => JoinCriteria.restores hv all,
    fun _ hv => Select.restores hv all, fun _ hv => SelectItem.restores hv all,
    fun _ hv => GroupBy.restores hv all, fun _ hv => GroupingElement.restores hv all, nofun⟩

/-- Where each alternative restores what stands behind its tag, each is a type that is restored. -/
theorem behind_restored {α : Type} {alternatives : List (String × Payload α)} {tagOf : α → String}
    {payload : α → Json} {valid finite : α → Prop} (unique : (alternatives.map Prod.fst).Nodup)
    (h : ∀ a, valid a →
      Restores.Behind alternatives (tagOf a) (Decoder.nesting + 1) (payload a) a (finite a)) :
    ∀ f ∈ alternatives.flatMap (behind tagOf payload valid finite), f.Restored := by
  intro f hf
  -- a tag stands only once among the alternatives, so its decoder is the one that restores
  obtain ⟨⟨tag, p⟩, hp, hf⟩ := List.mem_flatMap.mp hf
  cases p with
  | unit a => exact absurd hf List.not_mem_nil
  | value d =>
    rw [List.mem_singleton.mp hf]
    rintro a ⟨hv, ht⟩
    obtain ⟨d', hl, restores⟩ := h a hv
    rw [ht, lookup_of_mem unique hp] at hl
    rwa [Payload.value.inj (Option.some_inj.mp hl)]

theorem forms_restored : ∀ f ∈ forms, f.Restored := by
  have all := Nat.le_refl (Decoder.nesting + 1)
  unfold forms
  simp only [List.forall_mem_append]
  refine ⟨⟨⟨⟨?_, ?_⟩, ?_⟩, ?_⟩, ?_⟩
  · exact behind_restored (by simp [Statement.alternatives]) fun _ hv =>
      Statement.payloadRestored hv _ all
  · exact behind_restored (by simp [Expr.alternatives]) fun _ hv =>
      Expr.payloadRestored hv _ all
  · exact behind_restored (by simp [Relation.alternatives]) fun _ hv =>
      Relation.payloadRestored hv _ all
  · exact behind_restored (by simp [SelectItem.alternatives]) fun _ hv =>
      SelectItem.payloadRestored hv all
  · exact behind_restored (by simp [GroupingElement.alternatives]) fun _ hv =>
      GroupingElement.payloadRestored hv all

theorem restored_of_mem_all : ∀ f ∈ all, f.Restored := by
  unfold all
  simp only [List.forall_mem_append]
  exact ⟨⟨⟨families_restored, forms_restored⟩, parts_restored⟩, words_restored⟩

/-! ## Texts -/

/-- A valid value is decoded from the text of its encoding, the very same, if its doubles are finite
and read back from their digits and the text opens no more brackets within each other than may be
opened. If not all its doubles are finite, the text is refused. -/
theorem decode_text {f : Format} (hf : f ∈ all) {a : f.Carrier} (ha : f.Valid a) :
    (f.Finite a → (f.encode a).ReadBack → (f.encode a).depth ≤ Decoder.nesting →
      f.decoder.decode (f.encode a).text = .ok a) ∧
    (¬ f.Finite a → ∃ e, f.decoder.decode (f.encode a).text = .error e) := by
  have restored := restored_of_mem_all f hf a ha
  rw [Decoder.decode_proper_text f.decoder restored.proper]
  refine ⟨fun finite readBack => restored.ok finite readBack _ (Nat.lt_succ_self _), ?_⟩
  intro lost
  cases h : f.decoder Decoder.nesting (f.encode a) with
  | ok b => exact absurd (restored.of_ok h) lost
  | error e => exact ⟨e, rfl⟩

end Reader

/-- The second column of the third line compares a double with a text of two control characters and
a smile. -/
def compared (d : Double) : Node :=
  .expression (.binary (.of 3 2) (.comparison .equal) (.literal (.of 3 2) (.double d))
    (.literal .unknown (.string "\t\u0001😀")))

/-- Minus zero comes back as minus zero; not a number does not come back. -/
theorem decode_text_compared :
    Node.decoder.decode (compared ⟨0x8000000000000000⟩).encode.text =
      .ok (compared ⟨0x8000000000000000⟩) ∧
    ∃ e, Node.decoder.decode (compared .nan).encode.text = .error e := by
  have node : (⟨Node, Node.encode, Node.decoder, Node.Valid, Node.Finite⟩ : Format) ∈ all :=
    List.mem_append_left _ (List.mem_append_left _ (List.mem_append_left _ List.mem_cons_self))
  have valid (d : Double) : (compared d).Valid := ⟨True.intro, True.intro⟩
  have finite : (compared ⟨0x8000000000000000⟩).Finite := ⟨rfl, True.intro⟩
  have lost : ¬ (compared .nan).Finite := fun h => Bool.false_ne_true h.1
  have room : (compared ⟨0x8000000000000000⟩).encode.depth ≤ Decoder.nesting := by
    decide
  exact ⟨(decode_text (a := compared ⟨0x8000000000000000⟩) node (valid _)).1 finite
      (Json.readBack_nearest _) room,
    (decode_text (a := compared .nan) node (valid _)).2 lost⟩

end Format

end SqlTree
