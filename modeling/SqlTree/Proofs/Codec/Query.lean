import SqlTree.Codec.Query
import SqlTree.Proofs.Codec.Expr

/-!
# Encoded queries, restored

Relations, selections, grouping clauses and queries are restored from their encodings if their
doubles are finite.
-/

namespace SqlTree

open Decoder (Restores)

variable [Double.Reader] {bound : Nat}

theorem JoinCriteria.restores {c : JoinCriteria} (hc : c.Valid)
    (hb : bound ≤ Decoder.nesting + 1) : decoder.Restores bound c.encode c c.Finite := by
  rcases c with ⟨condition⟩
  exact .tagged rfl ((Expr.restores hc hb).map on)

/-! ## Relations -/

namespace Relation

/-- What stands behind the name of the form is restored, where the relations inside may nest `k`
times. -/
def PayloadRestored (r : Relation) (k : Nat) : Prop :=
  Restores.Behind (alternatives (decoderTo k)) r.tag k r.payload r r.Finite

theorem restored_decoderTo {r : Relation} (h : ∀ k ≤ Decoder.nesting + 1, r.PayloadRestored k) :
    ∀ k ≤ Decoder.nesting + 1, (decoderTo k).Restores k r.encode r r.Finite :=
  Restores.of_behind rfl (fun _ => rfl) h

theorem payloadRestored : ∀ {r : Relation}, r.Valid → ∀ k ≤ Decoder.nesting + 1,
    r.PayloadRestored k
  | table l name, hn, k, _ => by
    have fields : Fields.Restores _ k _ (table l name) _ :=
      ((Location.restores_field l).map table).seq (.field "name" (Name.restores hn)) (by simp)
    exact ⟨_, rfl, fields.decoder.congr (by simp [Relation.Finite])⟩
  | aliased l r newName, hv, k, hk => by
    have hr := restored_decoderTo (payloadRestored hv.1) k hk
    have fields : Fields.Restores _ k _ (l, r, newName) _ :=
      (((Location.restores_field l).map fun l r newName => (l, r, newName)).seq
        (.field "relation" hr) (by simp)).seq
        (.field "alias" (Decoder.restores_string newName)) (by simp)
    refine ⟨_, rfl, (fields.checked ?_).decoder.congr (by simp [Relation.Finite])⟩
    exact Except.map_eq_ok.mpr ⟨_, aliasedOf_eq_ok.mpr ⟨rfl, hv.2⟩, rfl⟩
  | join l type a b criteria within?, hv, k, hk => by
    have ha := restored_decoderTo (payloadRestored hv.1) k hk
    have hb := restored_decoderTo (payloadRestored hv.2.1) k hk
    have fields : Fields.Restores _ k _ (join l type a b criteria within?) _ :=
      ((((((Location.restores_field l).map join).seq (.field "join_type" type.restores)
        (by simp)).seq (.field "left" ha) (by simp)).seq (.field "right" hb) (by simp)).seq
        (.field "criteria" (JoinCriteria.restores hv.2.2 hk)) (by simp)).seq
        (.optional "within" (fun w _ => w.restores) fun _ => Json.noConfusion) (by simp)
    exact ⟨_, rfl, fields.decoder.congr (by simp [Relation.Finite, and_assoc])⟩

theorem restores {r : Relation} (hr : r.Valid) (hb : bound ≤ Decoder.nesting + 1) :
    decoder.Restores bound r.encode r r.Finite :=
  (restored_decoderTo (payloadRestored hr) (Decoder.nesting + 1) (Nat.le_refl _)).mono hb

end Relation

/-! ## Selections and grouping clauses -/

theorem SelectItem.payloadRestored {i : SelectItem} (hi : i.Valid)
    (hb : bound ≤ Decoder.nesting + 1) :
    Restores.Behind alternatives i.tag bound i.payload i i.Finite := by
  cases i with
  | single l e newName? =>
    have fields : Fields.Restores _ bound _ (single l e newName?) _ :=
      (((Location.restores_field l).map single).seq (.field "expression" (Expr.restores hi hb))
        (by simp)).seq (.optional "alias" (fun s _ => Decoder.restores_string s)
        fun _ => Json.noConfusion) (by simp)
    exact ⟨_, rfl, fields.decoder.congr (by simp [SelectItem.Finite])⟩
  | all l qualifier? =>
    have fields : Fields.Restores _ bound _ (all l qualifier?) _ :=
      ((Location.restores_field l).map all).seq (.optional "prefix"
        (fun n hn => Name.restores (hi n hn)) fun _ => Json.noConfusion) (by simp)
    exact ⟨_, rfl, fields.decoder.congr (by simp [SelectItem.Finite])⟩

theorem SelectItem.restores {i : SelectItem} (hi : i.Valid) (hb : bound ≤ Decoder.nesting + 1) :
    decoder.Restores bound i.encode i i.Finite := by
  obtain ⟨d, hl, hd⟩ := payloadRestored hi hb
  exact .tagged hl hd

theorem Select.restores {s : Select} (hs : s.Valid) (hb : bound ≤ Decoder.nesting + 1) :
    decoder.Restores bound s.encode s s.Finite := by
  have fields : Fields.Restores _ bound _ s _ :=
    ((Location.restores_field s.location).map Select.mk).seq
      (.field "select_items" (.list fun i hi => SelectItem.restores (hs i hi) hb)) (by simp)
  exact fields.decoder.congr (by simp [Select.Finite])

namespace GroupingElement

theorem restores_columnsFields {l : Location} {columns : List Expr}
    (element : Location → List Expr → GroupingElement) (hc : ∀ c ∈ columns, c.Valid)
    (hb : bound ≤ Decoder.nesting + 1) :
    (columnsFields element).Restores bound [("location", l.encode),
      ("columns", Json.ofList Expr.encode columns)] (element l columns) (∀ c ∈ columns, c.Finite) :=
  (((Location.restores_field l).map element).seq
    (.field "columns" (.list fun c h => Expr.restores (hc c h) hb)) (by simp)).congr (by simp)

theorem payloadRestored {g : GroupingElement} (hg : g.Valid) (hb : bound ≤ Decoder.nesting + 1) :
    Restores.Behind alternatives g.tag bound g.payload g g.Finite := by
  cases g with
  | simple l columns => exact ⟨_, rfl, (restores_columnsFields simple hg hb).decoder⟩
  | rollup l columns => exact ⟨_, rfl, (restores_columnsFields rollup hg hb).decoder⟩
  | cube l columns =>
    have fields : Fields.Restores _ bound _ (l, columns) _ :=
      ((Location.restores_field l).map fun l columns => (l, columns)).seq
        (.field "columns" (.list fun c h => Expr.restores (hg.2 c h) hb)) (by simp)
    refine ⟨_, rfl, (fields.checked ?_).decoder.congr (by simp [GroupingElement.Finite])⟩
    exact Except.map_eq_ok.mpr ⟨_, cubeOf_eq_ok.mpr ⟨rfl, hg.1⟩, rfl⟩
  | sets l ss =>
    have fields : Fields.Restores _ bound _ (sets l ss) _ :=
      ((Location.restores_field l).map sets).seq
        (.field "sets" (.list fun s hs => .list fun c hc => Expr.restores (hg s hs c hc) hb))
        (by simp)
    exact ⟨_, rfl, fields.decoder.congr (by simp [GroupingElement.Finite])⟩

theorem restores {g : GroupingElement} (hg : g.Valid) (hb : bound ≤ Decoder.nesting + 1) :
    decoder.Restores bound g.encode g g.Finite := by
  obtain ⟨d, hl, hd⟩ := payloadRestored hg hb
  exact .tagged hl hd

end GroupingElement

theorem GroupBy.restores {g : GroupBy} (hg : g.Valid) (hb : bound ≤ Decoder.nesting + 1) :
    decoder.Restores bound g.encode g g.Finite := by
  have fields : Fields.Restores _ bound _ g _ :=
    ((Location.restores_field g.location).map GroupBy.mk).seq
      (.field "grouping_elements" (.list fun e he => GroupingElement.restores (hg e he) hb))
      (by simp)
  exact fields.decoder.congr (by simp [GroupBy.Finite])

/-! ## Queries -/

theorem Query.restores {q : Query} (hq : q.Valid) (hb : bound ≤ Decoder.nesting + 1) :
    decoder.Restores bound q.encode q q.Finite := by
  have fields : Fields.Restores _ bound _ q _ :=
    ((((((((Location.restores_field q.location).map Query.mk).seq
      (.field "select" (Select.restores hq.select hb)) (by simp)).seq
      (.field "from" (Relation.restores hq.source hb)) (by simp)).seq
      (.optional "window" (fun w _ => w.restores) fun _ => Json.noConfusion) (by simp)).seq
      (.optional "where_clause" (fun e he => Expr.restores (hq.filter e he) hb)
        fun _ => Json.noConfusion) (by simp)).seq
      (.optional "group_by" (fun g hg => GroupBy.restores (hq.groupBy g hg) hb)
        fun _ => Json.noConfusion) (by simp)).seq
      (.optional "having" (fun e he => Expr.restores (hq.having e he) hb)
        fun _ => Json.noConfusion) (by simp)).seq
      (.optional "limit" (fun n _ => Decoder.restores_uint32 n) fun _ => Json.noConfusion)
      (by simp)
  refine fields.decoder.congr ⟨?_, ?_⟩
  · rintro ⟨⟨⟨⟨⟨⟨⟨-, hs⟩, hr⟩, -⟩, hf⟩, hg⟩, hh⟩, -⟩
    exact ⟨hs, hr, hf, hg, hh⟩
  · intro h
    have always : ∀ w ∈ q.window?, True := fun _ _ => True.intro
    have limit : ∀ n ∈ q.limit?, True := fun _ _ => True.intro
    exact ⟨⟨⟨⟨⟨⟨⟨True.intro, h.select⟩, h.source⟩, always⟩, h.filter⟩, h.groupBy⟩, h.having⟩, limit⟩

end SqlTree
