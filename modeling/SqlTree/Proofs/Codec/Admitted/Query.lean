import SqlTree.Proofs.Codec.Admitted.Expr
import SqlTree.Proofs.Codec.Query

/-!
# Decoded queries

Decoded relations, selections, grouping clauses and queries are valid, their doubles are finite, and
their encodings need no more levels than there were.
-/

namespace SqlTree

open Decoder (Admits AdmitsBehind)
open Fields (Gives)

theorem Relation.tagged_payload (r : Relation) : Json.tagged r.tag r.payload = r.encode := rfl

variable [Double.Reader]

theorem JoinCriteria.admitted : decoder.Admits encode fun c => c.Valid ∧ c.Finite := by
  refine Decoder.Gives.tagged ?_
  rintro alternative hm
  rw [List.mem_singleton.mp hm]
  refine Decoder.Gives.map Expr.admitted ?_
  rintro levels condition ⟨admitted, room⟩
  exact ⟨admitted, Json.depth_tagged_le.mpr room⟩

/-! ## Relations -/

namespace Relation

theorem admits_alternatives {relation : Decoder Relation}
    (h : relation.Admits encode fun r => r.Valid ∧ r.Finite) :
    ∀ alternative ∈ alternatives relation,
      AdmitsBehind tag payload (fun r => r.Valid ∧ r.Finite) alternative := by
  unfold alternatives
  simp only [List.forall_mem_cons]
  refine ⟨?table, ?aliased, ?join, nofun⟩
  case table =>
    refine Gives.decoder (.seq (.field Name.admitted) (.map Location.gives_field ?_))
    rintro levels l hl n ⟨hn, room⟩
    exact ⟨⟨⟨hn, trivial⟩, rfl⟩, by simp [payload, hl, room]⟩
  case aliased =>
    refine Gives.decoder (.checked (.seq (.field .any) (.seq (.field h)
      (.map Location.gives_field ?_))))
    rintro levels l hl r ⟨⟨valid, finite⟩, room⟩ newName - r' hr
    obtain ⟨made, hm, rfl⟩ := Except.map_eq_ok.mp hr
    obtain ⟨rfl, named⟩ := aliasedOf_eq_ok.mp hm
    refine ⟨⟨⟨⟨valid, named⟩, finite⟩, rfl⟩, ?_⟩
    simp [withLocation, payload, tagged_payload, hl, room]
  case join =>
    refine Gives.decoder (.seq (.option Within.admitted) (.seq (.field JoinCriteria.admitted)
      (.seq (.field h) (.seq (.field h) (.seq (.field JoinType.admitted)
      (.map Location.gives_field ?_))))))
    rintro levels l hl type ⟨-, ht⟩ a ⟨⟨va, fa⟩, ra⟩ b ⟨⟨vb, fb⟩, rb⟩ c ⟨⟨vc, fc⟩, rc⟩ within? hw
    refine ⟨⟨⟨⟨va, vb, vc⟩, fa, fb, fc⟩, rfl⟩, ?_⟩
    have within : ∀ w ∈ within?, w.encode.depth ≤ levels := fun w h => (hw w h).2
    simpa [payload, tagged_payload, hl, ht, ra, rb, rc] using within

theorem admittedTo (k : Nat) : (decoderTo k).Admits encode fun r => r.Valid ∧ r.Finite := by
  induction k with
  | zero => exact Decoder.Gives.fail
  | succ k ih => exact Admits.tagged (admits_alternatives ih)

theorem admitted : decoder.Admits encode fun r => r.Valid ∧ r.Finite := admittedTo _

end Relation

/-! ## Selections and grouping clauses -/

theorem SelectItem.admits_alternatives : ∀ alternative ∈ alternatives,
    AdmitsBehind tag payload (fun i => i.Valid ∧ i.Finite) alternative := by
  unfold alternatives
  simp only [List.forall_mem_cons]
  refine ⟨?single, ?all, nofun⟩
  case single =>
    refine Gives.decoder (.seq (.option .any) (.seq (.field Expr.admitted)
      (.map Location.gives_field ?_)))
    rintro levels l hl e ⟨admitted, room⟩ newName? -
    exact ⟨⟨admitted, rfl⟩, by simp [payload, hl, room]⟩
  case all =>
    refine Gives.decoder (.seq (.option Name.admitted) (.map Location.gives_field ?_))
    rintro levels l hl qualifier? hq
    refine ⟨⟨⟨fun n hn => (hq n hn).1, trivial⟩, rfl⟩, ?_⟩
    have qualifier : ∀ n ∈ qualifier?, n.encode.depth ≤ levels := fun n hn => (hq n hn).2
    simpa [payload, hl] using qualifier

theorem SelectItem.admitted : decoder.Admits encode fun i => i.Valid ∧ i.Finite :=
  Admits.tagged admits_alternatives

theorem Select.admitted : decoder.Admits encode fun s => s.Valid ∧ s.Finite := by
  refine Gives.decoder (.seq (.field SelectItem.admitted.list) (.map Location.gives_field ?_))
  rintro levels l hl items ⟨admitted, room⟩
  refine ⟨⟨fun i hi => (admitted i hi).1, fun i hi => (admitted i hi).2⟩, ?_⟩
  simp [encode, hl, room]

namespace GroupingElement

/-- Columns that are admitted, and their location. -/
def Columns (levels : Nat) (l : Location) (columns : List Expr) : Prop :=
  l.encode.depth ≤ levels ∧ (∀ c ∈ columns, c.Valid ∧ c.Finite) ∧
    (Json.ofList Expr.encode columns).depth ≤ levels

theorem gives_columns {α : Type} {element : Location → List Expr → α} {P : Nat → α → Prop}
    (h : ∀ levels l columns, Columns levels l columns → P levels (element l columns)) :
    (element <$> Location.field <*> Fields.field "columns" Expr.decoder.list).Gives P := by
  refine .seq (.field Expr.admitted.list) (.map Location.gives_field ?_)
  rintro levels l hl columns ⟨admitted, room⟩
  exact h levels l columns ⟨hl, admitted, room⟩

theorem admits_alternatives : ∀ alternative ∈ alternatives,
    AdmitsBehind tag payload (fun g => g.Valid ∧ g.Finite) alternative := by
  unfold alternatives
  simp only [List.forall_mem_cons]
  refine ⟨?simple, ?rollup, ?cube, ?sets, nofun⟩
  case simple =>
    refine Gives.decoder (gives_columns ?_)
    rintro levels l columns ⟨hl, admitted, room⟩
    exact ⟨⟨⟨fun c hc => (admitted c hc).1, fun c hc => (admitted c hc).2⟩, rfl⟩,
      by simp [payload, hl, room]⟩
  case rollup =>
    refine Gives.decoder (gives_columns ?_)
    rintro levels l columns ⟨hl, admitted, room⟩
    exact ⟨⟨⟨fun c hc => (admitted c hc).1, fun c hc => (admitted c hc).2⟩, rfl⟩,
      by simp [payload, hl, room]⟩
  case cube =>
    refine Gives.decoder (.checked (gives_columns ?_))
    rintro levels l columns ⟨hl, admitted, room⟩ g hg
    obtain ⟨made, hm, rfl⟩ := Except.map_eq_ok.mp hg
    obtain ⟨rfl, few⟩ := cubeOf_eq_ok.mp hm
    exact ⟨⟨⟨⟨few, fun c hc => (admitted c hc).1⟩, fun c hc => (admitted c hc).2⟩, rfl⟩,
      by simp [withLocation, payload, hl, room]⟩
  case sets =>
    refine Gives.decoder (.seq (.field Expr.admitted.list.list) (.map Location.gives_field ?_))
    rintro levels l hl ss ⟨admitted, room⟩
    exact ⟨⟨⟨fun s hs c hc => (admitted s hs c hc).1, fun s hs c hc => (admitted s hs c hc).2⟩,
      rfl⟩, by simp [payload, hl, room]⟩

theorem admitted : decoder.Admits encode fun g => g.Valid ∧ g.Finite :=
  Admits.tagged admits_alternatives

end GroupingElement

theorem GroupBy.admitted : decoder.Admits encode fun g => g.Valid ∧ g.Finite := by
  refine Gives.decoder (.seq (.field GroupingElement.admitted.list) (.map Location.gives_field ?_))
  rintro levels l hl elements ⟨admitted, room⟩
  refine ⟨⟨fun e he => (admitted e he).1, fun e he => (admitted e he).2⟩, ?_⟩
  simp [encode, hl, room]

/-! ## Queries -/

theorem Query.admitted : decoder.Admits encode fun q => q.Valid ∧ q.Finite := by
  refine Gives.decoder (.seq (.option .any) (.seq (.option Expr.admitted)
    (.seq (.option GroupBy.admitted) (.seq (.option Expr.admitted) (.seq (.option Window.admitted)
    (.seq (.field Relation.admitted) (.seq (.field Select.admitted)
    (.map Location.gives_field ?_))))))))
  rintro levels l hl s ⟨⟨vs, fs⟩, rs⟩ r ⟨⟨vr, fr⟩, rr⟩ window? hw filter? hf groupBy? hg having? hh
    limit? -
  have valid : Valid ⟨l, s, r, window?, filter?, groupBy?, having?, limit?⟩ :=
    ⟨vs, vr, fun e he => (hf e he).1.1, fun g h => (hg g h).1.1, fun e he => (hh e he).1.1⟩
  have finite : Finite ⟨l, s, r, window?, filter?, groupBy?, having?, limit?⟩ :=
    ⟨fs, fr, fun e he => (hf e he).1.2, fun g h => (hg g h).1.2, fun e he => (hh e he).1.2⟩
  refine ⟨⟨valid, finite⟩, ?_⟩
  have window : ∀ w ∈ window?, w.encode.depth ≤ levels := fun w h => (hw w h).2
  have filter : ∀ e ∈ filter?, e.encode.depth ≤ levels := fun e he => (hf e he).2
  have groupBy : ∀ g ∈ groupBy?, g.encode.depth ≤ levels := fun g h => (hg g h).2
  have having : ∀ e ∈ having?, e.encode.depth ≤ levels := fun e he => (hh e he).2
  simpa [encode, hl, rs, rr] using ⟨window, filter, groupBy, having⟩

end SqlTree
