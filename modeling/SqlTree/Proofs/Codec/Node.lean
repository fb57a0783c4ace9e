import SqlTree.Codec.Node
import SqlTree.Proofs.Codec.Query

/-!
# Encoded statements and nodes, restored

Statements, and nodes of every family, are restored from their encodings if their doubles are
finite.
-/

namespace SqlTree

open Decoder (Restores)

theorem Statement.encodeList_eq (ss : List Statement) : encodeList ss = ss.map encode := by
  induction ss with
  | nil => rfl
  | cons s ss ih => rw [encodeList, ih, List.map_cons, encode]

variable [Double.Reader] {bound : Nat}

namespace Statement

/-! ## Forms of statements -/

theorem restores_create {l : Location} {c : Collection} {n : Name} {es : List TableElement}
    {i : Bool} {p : Properties} (hv : (create l c n es i p).Valid)
    (hb : bound ≤ Decoder.nesting + 1) :
    (createDecoder c).Restores bound (payload (.create l c n es i p)) (.create l c n es i p)
      p.Finite := by
  have fields : Fields.Restores _ bound _ (create l c n es i p) _ :=
    (((((Location.restores_field l).map fun l n es i p => create l c n es i p).seq
      (.field "name" (Name.restores hv.1)) (by simp)).seq
      (.field "elements" (.list fun e he => TableElement.restores (hv.2.1 e he) hb))
      (by simp)).seq
      (.field "not_exists" (Decoder.restores_bool i)) (by simp)).seq
      (.field "properties" (Properties.restores hv.2.2)) (by simp)
  exact fields.decoder.congr (by simp)

theorem restores_connector {l : Location} {n : String} {p : Properties} {t : ConnectorType}
    (hn : n ≠ "") (hp : p.Valid) :
    connectorDecoder.Restores bound (payload (createConnector l n p t)) (createConnector l n p t)
      p.Finite := by
  have fields : Fields.Restores _ bound _ (l, n, p, t) _ :=
    ((((Location.restores_field l).map fun l n p t => (l, n, p, t)).seq
      (.field "name" (Decoder.restores_string n)) (by simp)).seq
      (.field "config" (Properties.restores hp)) (by simp)).seq
      (.field "connector_type" t.restores) (by simp)
  refine (fields.checked ?_).decoder.congr (by simp)
  exact Except.map_eq_ok.mpr ⟨_, connectorOf_eq_ok.mpr ⟨rfl, hn⟩, rfl⟩

/-- What stands behind the name of the form is restored, where the statements inside may nest `k`
times. -/
def PayloadRestored (s : Statement) (k : Nat) : Prop :=
  Restores.Behind (alternatives (decoderTo k)) s.tag k s.payload s s.Finite

theorem restored_decoderTo {s : Statement} (h : ∀ k ≤ Decoder.nesting + 1, s.PayloadRestored k) :
    ∀ k ≤ Decoder.nesting + 1, (decoderTo k).Restores k s.encode s s.Finite :=
  Restores.of_behind rfl (fun _ => rfl) h

mutual

theorem payloadRestored : ∀ {s : Statement}, s.Valid → ∀ k ≤ Decoder.nesting + 1,
    s.PayloadRestored k
  | .several l ss, hv, k, hk => by
    have statements := Restores.list fun s hs => restoredList hv hs k hk
    have fields : Fields.Restores _ k _ (several l ss) _ :=
      ((Location.restores_field l).map several).seq (.field "statements" statements) (by simp)
    refine ⟨_, rfl, ?_⟩
    rw [payload, encodeList_eq]
    exact fields.decoder.congr (by simp [Statement.Finite, finiteList_iff])
  | .create l .stream n es i p, hv, k, hk => ⟨_, rfl, restores_create hv hk⟩
  | .create l .table n es i p, hv, k, hk => ⟨_, rfl, restores_create hv hk⟩
  | .createStreamAs l n q i p e?, hv, k, hk => by
    have fields : Fields.Restores _ k _ (createStreamAs l n q i p e?) _ :=
      ((((((Location.restores_field l).map createStreamAs).seq
        (.field "name" (Name.restores hv.1)) (by simp)).seq
        (.field "query" (Query.restores hv.2.1 hk)) (by simp)).seq
        (.field "not_exists" (Decoder.restores_bool i)) (by simp)).seq
        (.field "properties" (Properties.restores hv.2.2.1)) (by simp)).seq
        (.optional "partition_by" (fun e he => Expr.restores (hv.2.2.2 e he) hk)
        fun _ => Json.noConfusion) (by simp)
    exact ⟨_, rfl, fields.decoder.congr (by simp [Statement.Finite, and_assoc])⟩
  | .createTableAs l n q i p, hv, k, hk => by
    have fields : Fields.Restores _ k _ (createTableAs l n q i p) _ :=
      (((((Location.restores_field l).map createTableAs).seq
        (.field "name" (Name.restores hv.1)) (by simp)).seq
        (.field "query" (Query.restores hv.2.1 hk)) (by simp)).seq
        (.field "not_exists" (Decoder.restores_bool i)) (by simp)).seq
        (.field "properties" (Properties.restores hv.2.2)) (by simp)
    exact ⟨_, rfl, fields.decoder.congr (by simp [Statement.Finite])⟩
  | .insertInto l t q e?, hv, k, hk => by
    have fields : Fields.Restores _ k _ (insertInto l t q e?) _ :=
      ((((Location.restores_field l).map insertInto).seq
        (.field "target" (Name.restores hv.1)) (by simp)).seq
        (.field "query" (Query.restores hv.2.1 hk)) (by simp)).seq
        (.optional "partition_by" (fun e he => Expr.restores (hv.2.2 e he) hk)
        fun _ => Json.noConfusion) (by simp)
    exact ⟨_, rfl, fields.decoder.congr (by simp [Statement.Finite])⟩
  | .dropTable l n i d, hv, k, _ => by
    have fields : Fields.Restores _ k _ (dropTable l n i d) _ :=
      ((((Location.restores_field l).map dropTable).seq
        (.field "name" (Name.restores hv)) (by simp)).seq
        (.field "if_exists" (Decoder.restores_bool i)) (by simp)).seq
        (.field "delete_topic" (Decoder.restores_bool d)) (by simp)
    exact ⟨_, rfl, fields.decoder.congr (by simp [Statement.Finite])⟩
  | .createConnector l n p t, hv, k, _ => ⟨_, rfl, restores_connector hv.1 hv.2⟩
  | .query q, hv, k, hk => ⟨_, rfl, (Query.restores hv hk).map Statement.query⟩

theorem restoredList : ∀ {ss : List Statement}, ValidList ss → ∀ {s : Statement}, s ∈ ss →
    ∀ k ≤ Decoder.nesting + 1, (decoderTo k).Restores k s.encode s s.Finite
  | s :: ss, hv, s', hs, k, hk => by
    rcases List.mem_cons.mp hs with first | hs
    · rw [first]
      exact restored_decoderTo (payloadRestored hv.1) k hk
    · exact restoredList hv.2 hs k hk

end

theorem restores {s : Statement} (hs : s.Valid) (hb : bound ≤ Decoder.nesting + 1) :
    decoder.Restores bound s.encode s s.Finite :=
  (restored_decoderTo (payloadRestored hs) (Decoder.nesting + 1) (Nat.le_refl _)).mono hb

end Statement

/-! ## Nodes -/

theorem Node.restores {n : Node} (hn : n.Valid) (hb : bound ≤ Decoder.nesting + 1) :
    decoder.Restores bound n.encode n n.Finite := by
  cases n with
  | statement s => exact .tagged rfl ((Statement.restores hn hb).map statement)
  | expression e => exact .tagged rfl ((Expr.restores hn hb).map expression)
  | relation r => exact .tagged rfl ((Relation.restores hn hb).map relation)
  | select s => exact .tagged rfl ((Select.restores hn hb).map select)
  | selectItem i => exact .tagged rfl ((SelectItem.restores hn hb).map selectItem)
  | groupBy g => exact .tagged rfl ((GroupBy.restores hn hb).map groupBy)
  | groupingElement g => exact .tagged rfl ((GroupingElement.restores hn hb).map groupingElement)
  | window w => exact .tagged rfl (w.restores.map window)
  | ksqlWindow w => exact .tagged rfl (w.restores.map ksqlWindow)
  | within w => exact .tagged rfl (w.restores.map within)
  | tableElement e => exact .tagged rfl ((TableElement.restores hn hb).map tableElement)

end SqlTree
