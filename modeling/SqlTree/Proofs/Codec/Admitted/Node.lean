import SqlTree.Proofs.Codec.Admitted.Query
import SqlTree.Proofs.Codec.Node

/-!
# Decoded statements and nodes

Decoded statements, and decoded nodes of every family, are valid, their doubles are finite, and
their encodings need no more levels than there were.
-/

namespace SqlTree

open Decoder (Admits AdmitsBehind Payload)
open Fields (Gives)

/-! ## Statements -/

theorem Statement.array_encodeList (ss : List Statement) :
    Json.array (encodeList ss) = Json.ofList encode ss := congrArg Json.array (encodeList_eq ss)

namespace Statement

variable [Double.Reader]

theorem gives_create (collection : Collection) : (createDecoder collection).Gives fun levels s =>
    ((s.Valid ∧ s.Finite) ∧ s.tag = tag (create .unknown collection ⟨[]⟩ [] false .empty)) ∧
      s.payload.depth ≤ levels := by
  refine Gives.decoder (.seq (.field Properties.admitted) (.seq (.field .any)
    (.seq (.field TableElement.admitted.list) (.seq (.field Name.admitted)
    (.map Location.gives_field ?_)))))
  rintro levels l hl n ⟨hn, rn⟩ es ⟨valid, re⟩ i - p ⟨⟨vp, fp⟩, rp⟩
  refine ⟨⟨⟨⟨hn, valid, vp⟩, fp⟩, by cases collection <;> rfl⟩, ?_⟩
  cases collection <;> simp [payload, Json.depth, hl, rn, re, rp]

theorem gives_connector : connectorDecoder.Gives fun levels s =>
    ((s.Valid ∧ s.Finite) ∧ s.tag = "CreateConnector") ∧ s.payload.depth ≤ levels := by
  refine Gives.decoder (.checked (.seq (.field ConnectorType.admitted)
    (.seq (.field Properties.admitted) (.seq (.field .any) (.map Location.gives_field ?_)))))
  rintro levels l hl n - p ⟨⟨vp, fp⟩, rp⟩ t ⟨-, rt⟩ s hs
  obtain ⟨made, hm, rfl⟩ := Except.map_eq_ok.mp hs
  obtain ⟨rfl, named⟩ := connectorOf_eq_ok.mp hm
  exact ⟨⟨⟨⟨named, vp⟩, fp⟩, rfl⟩, by simp [withLocation, payload, hl, rp, rt]⟩

theorem admits_alternatives {statement : Decoder Statement}
    (h : statement.Admits encode fun s => s.Valid ∧ s.Finite) :
    ∀ alternative ∈ alternatives statement,
      AdmitsBehind tag payload (fun s => s.Valid ∧ s.Finite) alternative := by
  unfold alternatives
  simp only [List.forall_mem_cons]
  refine ⟨?several, gives_create .stream, gives_create .table, ?createStreamAs, ?createTableAs,
    ?insertInto, ?dropTable, gives_connector, ?query, nofun⟩
  case several =>
    refine Gives.decoder (.seq (.field h.list) (.map Location.gives_field ?_))
    rintro levels l hl ss ⟨admitted, room⟩
    refine ⟨⟨⟨validList_iff.mpr fun s hs => (admitted s hs).1,
      finiteList_iff.mpr fun s hs => (admitted s hs).2⟩, rfl⟩, ?_⟩
    simp [payload, array_encodeList, hl, room]
  case createStreamAs =>
    refine Gives.decoder (.seq (.option Expr.admitted) (.seq (.field Properties.admitted)
      (.seq (.field .any) (.seq (.field Query.admitted) (.seq (.field Name.admitted)
      (.map Location.gives_field ?_))))))
    rintro levels l hl n ⟨hn, rn⟩ q ⟨⟨vq, fq⟩, rq⟩ i - p ⟨⟨vp, fp⟩, rp⟩ e? he
    refine ⟨⟨⟨⟨hn, vq, vp, fun e h => (he e h).1.1⟩, fq, fp, fun e h => (he e h).1.2⟩, rfl⟩, ?_⟩
    have partition : ∀ e ∈ e?, e.encode.depth ≤ levels := fun e h => (he e h).2
    simpa [payload, Json.depth, hl, rn, rq, rp] using partition
  case createTableAs =>
    refine Gives.decoder (.seq (.field Properties.admitted) (.seq (.field .any)
      (.seq (.field Query.admitted) (.seq (.field Name.admitted) (.map Location.gives_field ?_)))))
    rintro levels l hl n ⟨hn, rn⟩ q ⟨⟨vq, fq⟩, rq⟩ i - p ⟨⟨vp, fp⟩, rp⟩
    refine ⟨⟨⟨⟨hn, vq, vp⟩, fq, fp⟩, rfl⟩, ?_⟩
    simp [payload, Json.depth, hl, rn, rq, rp]
  case insertInto =>
    refine Gives.decoder (.seq (.option Expr.admitted) (.seq (.field Query.admitted)
      (.seq (.field Name.admitted) (.map Location.gives_field ?_))))
    rintro levels l hl n ⟨hn, rn⟩ q ⟨⟨vq, fq⟩, rq⟩ e? he
    refine ⟨⟨⟨⟨hn, vq, fun e h => (he e h).1.1⟩, fq, fun e h => (he e h).1.2⟩, rfl⟩, ?_⟩
    have partition : ∀ e ∈ e?, e.encode.depth ≤ levels := fun e h => (he e h).2
    simpa [payload, hl, rn, rq] using partition
  case dropTable =>
    refine Gives.decoder (.seq (.field .any) (.seq (.field .any) (.seq (.field Name.admitted)
      (.map Location.gives_field ?_))))
    rintro levels l hl n ⟨hn, rn⟩ i - d -
    exact ⟨⟨⟨hn, trivial⟩, rfl⟩, by simp [payload, Json.depth, hl, rn]⟩
  case query =>
    refine .map Query.admitted ?_
    rintro levels q ⟨admitted, room⟩
    exact ⟨⟨admitted, rfl⟩, room⟩

theorem admittedTo (k : Nat) : (decoderTo k).Admits encode fun s => s.Valid ∧ s.Finite := by
  induction k with
  | zero => exact Decoder.Gives.fail
  | succ k ih => exact Admits.tagged (admits_alternatives ih)

theorem admitted : decoder.Admits encode fun s => s.Valid ∧ s.Finite := admittedTo _

end Statement

/-! ## Nodes -/

/-- A decoded part of a node, as a node. -/
theorem Node.gives_family {α : Type} {d : Decoder α} {encode : α → Json} {p : α → Prop}
    {node : α → Node} {tag : String} (h : d.Admits encode p)
    (hp : ∀ a, p a → (node a).Valid ∧ (node a).Finite)
    (tagged : ∀ a, (node a).encode = .tagged tag (encode a)) :
    (Payload.value (d.map node)).Gives fun levels (n : Node) =>
      (n.Valid ∧ n.Finite) ∧ n.encode.depth ≤ levels := by
  refine Decoder.Gives.map h ?_
  rintro levels a ⟨ha, room⟩
  rw [tagged]
  exact ⟨hp a ha, Json.depth_tagged_le.mpr room⟩

variable [Double.Reader]

theorem Node.admitted : decoder.Admits encode fun n => n.Valid ∧ n.Finite := by
  refine Decoder.Gives.tagged ?_
  simp only [List.forall_mem_cons]
  exact ⟨gives_family Statement.admitted (fun _ h => h) fun _ => rfl,
    gives_family Expr.admitted (fun _ h => h) fun _ => rfl,
    gives_family Relation.admitted (fun _ h => h) fun _ => rfl,
    gives_family Select.admitted (fun _ h => h) fun _ => rfl,
    gives_family SelectItem.admitted (fun _ h => h) fun _ => rfl,
    gives_family GroupBy.admitted (fun _ h => h) fun _ => rfl,
    gives_family GroupingElement.admitted (fun _ h => h) fun _ => rfl,
    gives_family Window.admitted (fun _ _ => ⟨trivial, trivial⟩) fun _ => rfl,
    gives_family KsqlWindow.admitted (fun _ _ => ⟨trivial, trivial⟩) fun _ => rfl,
    gives_family Within.admitted (fun _ _ => ⟨trivial, trivial⟩) fun _ => rfl,
    gives_family TableElement.admitted (fun _ h => ⟨h, trivial⟩) fun _ => rfl, nofun⟩

end SqlTree
