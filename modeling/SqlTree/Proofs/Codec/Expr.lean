import SqlTree.Codec.Expr
import SqlTree.Proofs.Codec.Scalar
import SqlTree.Proofs.Node.Validity

/-!
# Encoded expressions, restored

An expression is restored from its encoding if its doubles are finite. What stands behind the name
of its form is restored by the decoder of that form, as long as the decoder of the expressions
inside restores them.
-/

namespace SqlTree

open Decoder (Restores)

theorem Expr.encodeList_eq (es : List Expr) : encodeList es = es.map encode := by
  induction es with
  | nil => rfl
  | cons e es ih => rw [encodeList, ih, List.map_cons, encode]

theorem Expr.encodeOption_eq (e? : Option Expr) : encodeOption e? = Json.ofOption encode e? := by
  cases e? <;> rfl

theorem Branch.encodeList_eq (bs : List Branch) : encodeList bs = bs.map encode := by
  induction bs with
  | nil => rfl
  | cons b bs ih => rw [encodeList, ih, List.map_cons]

theorem InList.check_eq {xs : InList} (hx : xs.Valid) : check xs = .ok xs := by
  rcases xs with ⟨l, es⟩
  exact Except.map_eq_ok.mpr ⟨_, of_eq_ok.mpr ⟨rfl, hx.1⟩, rfl⟩

variable [Double.Reader] {bound : Nat} {expr : Decoder Expr}

/-- The decoder restores the expression. -/
def Expr.RestoredBy (expr : Decoder Expr) (bound : Nat) (e : Expr) : Prop :=
  expr.Restores bound e.encode e e.Finite

/-! ## Parts of expressions -/

theorem InList.restoresWith {l : Location} {es : List Expr} (hx : InList.Valid ⟨l, es⟩)
    (h : ∀ e ∈ es, e.RestoredBy expr bound) :
    (decoderWith expr).Restores bound (encode ⟨l, es⟩) ⟨l, es⟩ (InList.Finite ⟨l, es⟩) := by
  have fields : Fields.Restores _ bound _ (⟨l, es⟩ : InList) _ :=
    ((Location.restores_field l).map InList.mk).seq (.field "values" (.list h)) (by simp)
  have list := (fields.checked (check_eq hx)).decoder
  rw [encode, Expr.encodeList_eq]
  exact list.congr (by rw [InList.Finite, Expr.finiteList_iff, true_and])

theorem Branch.restoresWith {l : Location} {c r : Expr} (hc : c.RestoredBy expr bound)
    (hr : r.RestoredBy expr bound) :
    (decoderWith expr).Restores bound (encode ⟨l, c, r⟩) ⟨l, c, r⟩ (Branch.Finite ⟨l, c, r⟩) := by
  have fields : Fields.Restores _ bound _ (⟨l, c, r⟩ : Branch) _ :=
    (((Location.restores_field l).map Branch.mk).seq (.field "operand" hc) (by simp)).seq
      (.field "result" hr) (by simp)
  exact fields.decoder.congr (by rw [Branch.Finite, true_and])

namespace Expr

theorem restores_unaryFields {l : Location} {op : UnaryOperator} {e : Expr} {operand : String}
    (he : e.RestoredBy expr bound) (apart : operand ≠ "location") :
    (unaryFields expr op operand).Restores bound [("location", l.encode), (operand, e.encode)]
      (.unary l op e) (True ∧ e.Finite) :=
  ((Location.restores_field l).map fun l e => unary l op e).seq (.field operand he) (by simpa)

theorem restores_binaryFields {l : Location} {op : BinaryOperator} {a b : Expr}
    {operator : Fields BinaryOperator} {ms : List (String × Json)} {left right : String}
    (hop : operator.Restores bound ms op True) (ha : a.RestoredBy expr bound)
    (hb : b.RestoredBy expr bound)
    (apart : ("location" :: ms.map Prod.fst ++ [left, right]).Nodup) :
    (binaryFields expr operator left right).Restores bound
      (("location", l.encode) :: ms ++ [(left, a.encode)] ++ [(right, b.encode)])
      (.binary l op a b) (((True ∧ True) ∧ a.Finite) ∧ b.Finite) := by
  obtain ⟨before, operands, differ⟩ := List.nodup_append.mp apart
  have first := ((Location.restores_field l).map Expr.binary).seq hop (by
    intro n hn hl
    rw [List.mem_singleton.mp hl] at hn
    exact (List.nodup_cons.mp before).1 hn)
  have second := first.seq (.field left ha) (by
    intro n hn hm
    obtain rfl := List.mem_singleton.mp hn
    exact differ n hm n List.mem_cons_self rfl)
  refine second.seq (.field right hb) ?_
  intro n hn hm
  obtain rfl := List.mem_singleton.mp hn
  rw [List.map_append, List.mem_append] at hm
  rcases hm with hm | hm
  · exact differ n hm n (List.mem_cons_of_mem left List.mem_cons_self) rfl
  · exact (List.nodup_cons.mp operands).1 (List.mem_singleton.mp hm ▸ List.mem_cons_self)

theorem restores_fieldFields {l : Location} {e : Expr} {name : String}
    (he : e.RestoredBy expr bound) (hn : name ≠ "") :
    (fieldFields expr).Restores bound [("location", l.encode), ("base", e.encode),
      ("field_name", .ofString name)] (.unary l (.field name) e) e.Finite := by
  have fields : Fields.Restores _ bound _ (l, e, name) _ :=
    (((Location.restores_field l).map fun l e name => (l, e, name)).seq (.field "base" he)
      (by simp)).seq (.field "field_name" (Decoder.restores_string name)) (by simp)
  refine (fields.checked ?_).congr (by simp)
  exact Except.map_eq_ok.mpr ⟨_, fieldOf_eq_ok.mpr ⟨rfl, hn⟩, rfl⟩

theorem restores_literalFields {l : Location} {v : Literal} (hv : v.Valid) :
    literalFields.Restores bound [("location", l.encode), ("value", v.encode)] (.literal l v)
      (True ∧ v.Finite) :=
  ((Location.restores_field l).map literal).seq (.field "value" (Literal.restores hv)) (by simp)

/-! ## Forms of expressions -/

/-- What stands behind the name of the form is restored, where the expressions inside may nest `k`
times. -/
def PayloadRestored (e : Expr) (k : Nat) : Prop :=
  Restores.Behind (alternatives (decoderTo k)) e.tag k e.payload e e.Finite

theorem restoredBy_decoderTo {e : Expr} (h : ∀ k ≤ Decoder.nesting + 1, e.PayloadRestored k) :
    ∀ k ≤ Decoder.nesting + 1, e.RestoredBy (decoderTo k) k :=
  Restores.of_behind rfl (fun _ => rfl) h

section Forms

variable {l : Location} {e a b : Expr} {k : Nat}

theorem column_restored {n : Name} (hn : n.Valid) : (column l n).PayloadRestored k := by
  have fields : Fields.Restores _ k _ (column l n) _ :=
    ((Location.restores_field l).map column).seq (.field "name" (Name.restores hn)) (by simp)
  exact ⟨_, rfl, fields.decoder.congr (by simp [Expr.Finite])⟩

theorem literal_restored {v : Literal} (hv : v.Valid) : (literal l v).PayloadRestored k :=
  ⟨_, rfl, (restores_literalFields hv).decoder.congr (by rw [Expr.Finite, true_and])⟩

theorem unary_restored {op : UnaryOperator} (hop : op.Valid) (he : e.RestoredBy (decoderTo k) k)
    (hk : k ≤ Decoder.nesting + 1) : (unary l op e).PayloadRestored k := by
  cases op with
  | sign s =>
    have fields : Fields.Restores _ k _ (unary l (.sign s) e) _ :=
      (((Location.restores_field l).map fun l s e => unary l (.sign s) e).seq
        (.field "sign" s.restores) (by simp)).seq (.field "value" he) (by simp)
    exact ⟨_, rfl, fields.decoder.congr (by simp [Expr.Finite])⟩
  | isNull =>
    exact ⟨_, rfl, (restores_unaryFields he (by simp)).decoder.congr (by simp [Expr.Finite])⟩
  | isNotNull =>
    exact ⟨_, rfl, (restores_unaryFields he (by simp)).decoder.congr (by simp [Expr.Finite])⟩
  | not =>
    exact ⟨_, rfl, (restores_unaryFields he (by simp)).decoder.congr (by simp [Expr.Finite])⟩
  | cast type =>
    have fields : Fields.Restores _ k _ (unary l (.cast type) e) _ :=
      (((Location.restores_field l).map fun l e t => unary l (.cast t) e).seq
        (.field "expression" he) (by simp)).seq
        (.field "target_type" (SqlType.restores hop hk)) (by simp)
    exact ⟨_, rfl, fields.decoder.congr (by simp [Expr.Finite])⟩
  | field name => exact ⟨_, rfl, (restores_fieldFields he hop).decoder⟩

/-- An operation on two operands is restored if the fields of its form are those of the operator. -/
theorem restores_binaryDecoder {op : BinaryOperator} {operator : Fields BinaryOperator}
    {ms : List (String × Json)} {left right : String}
    (hop : operator.Restores k ms op True) (ha : a.RestoredBy (decoderTo k) k)
    (hb : b.RestoredBy (decoderTo k) k)
    (apart : ("location" :: ms.map Prod.fst ++ [left, right]).Nodup) :
    (binaryFields (decoderTo k) operator left right).decoder.Restores k
      (.located l (ms ++ [(left, a.encode), (right, b.encode)])) (binary l op a b)
      (binary l op a b).Finite := by
  have fields := (restores_binaryFields (l := l) hop ha hb apart).decoder
  simp only [List.append_assoc] at fields
  exact fields.congr (by simp [Expr.Finite])

theorem binary_restored {op : BinaryOperator} (ha : a.RestoredBy (decoderTo k) k)
    (hb : b.RestoredBy (decoderTo k) k) : (binary l op a b).PayloadRestored k := by
  have word {α : Type} {d : Decoder α} {j : Json} {word : α} (wrap : α → BinaryOperator)
      (h : d.Restores k j word True) :
      (wrap <$> Fields.field "operator" d).Restores k [("operator", j)] (wrap word) True :=
    (Fields.Restores.field "operator" h).map wrap
  cases op with
  | arithmetic op =>
    exact ⟨_, rfl, restores_binaryDecoder (word .arithmetic op.restores) ha hb (by simp)⟩
  | comparison op =>
    exact ⟨_, rfl, restores_binaryDecoder (word .comparison op.restores) ha hb (by simp)⟩
  | logical op =>
    exact ⟨_, rfl, restores_binaryDecoder (word .logical op.restores) ha hb (by simp)⟩
  | like =>
    exact ⟨_, rfl, restores_binaryDecoder (.always BinaryOperator.like) ha hb (by simp)⟩
  | subscript =>
    exact ⟨_, rfl, restores_binaryDecoder (.always BinaryOperator.subscript) ha hb (by simp)⟩

theorem between_restored (he : e.RestoredBy (decoderTo k) k) (ha : a.RestoredBy (decoderTo k) k)
    (hb : b.RestoredBy (decoderTo k) k) : (between l e a b).PayloadRestored k := by
  have fields : Fields.Restores _ k _ (between l e a b) _ :=
    ((((Location.restores_field l).map between).seq (.field "value" he) (by simp)).seq
      (.field "min" ha) (by simp)).seq (.field "max" hb) (by simp)
  exact ⟨_, rfl, fields.decoder.congr (by simp [Expr.Finite, and_assoc])⟩

theorem isIn_restored {xs : InList} (he : e.RestoredBy (decoderTo k) k)
    (hx : (InList.decoderWith (decoderTo k)).Restores k xs.encode xs xs.Finite) :
    (isIn l e xs).PayloadRestored k := by
  have fields : Fields.Restores _ k _ (isIn l e xs) _ :=
    (((Location.restores_field l).map isIn).seq (.field "value" he) (by simp)).seq
      (.field "value_list" hx) (by simp)
  exact ⟨_, rfl, fields.decoder.congr (by simp [Expr.Finite])⟩

theorem call_restored {f : Name} {xs : List Expr} (hf : f.Valid)
    (hx : ∀ x ∈ xs, x.RestoredBy (decoderTo k) k) : (call l f xs).PayloadRestored k := by
  have fields : Fields.Restores _ k _ (call l f xs) _ :=
    (((Location.restores_field l).map call).seq (.field "name" (Name.restores hf))
      (by simp)).seq (.field "arguments" (.list hx)) (by simp)
  refine ⟨_, rfl, ?_⟩
  rw [payload, encodeList_eq]
  exact fields.decoder.congr (by simp [Expr.Finite, finiteList_iff])

variable {bs : List Branch} {e? : Option Expr}

theorem searchedCase_restored
    (hb : ∀ b ∈ bs, (Branch.decoderWith (decoderTo k)).Restores k b.encode b b.Finite)
    (he : ∀ e ∈ e?, e.RestoredBy (decoderTo k) k) : (case l none bs e?).PayloadRestored k := by
  have fields : Fields.Restores _ k _ (case l none bs e?) _ :=
    (((Location.restores_field l).map fun l bs e => case l none bs e).seq
      (.field "when_clauses" (.list hb)) (by simp)).seq
      (.optional "default_value" he fun _ => Json.noConfusion) (by simp)
  refine ⟨_, rfl, ?_⟩
  rw [payload, Branch.encodeList_eq, encodeOption_eq]
  exact fields.decoder.congr
    (by simp [Expr.Finite, Branch.finiteList_iff, finiteOption_iff, FiniteOption])

theorem simpleCase_restored (ha : a.RestoredBy (decoderTo k) k)
    (hb : ∀ b ∈ bs, (Branch.decoderWith (decoderTo k)).Restores k b.encode b b.Finite)
    (he : ∀ e ∈ e?, e.RestoredBy (decoderTo k) k) : (case l (some a) bs e?).PayloadRestored k := by
  have fields : Fields.Restores _ k _ (case l (some a) bs e?) _ :=
    ((((Location.restores_field l).map fun l o bs e => case l (some o) bs e).seq
      (.field "operand" ha) (by simp)).seq
      (.field "when_clauses" (.list hb)) (by simp)).seq
      (.optional "default_value" he fun _ => Json.noConfusion) (by simp)
  refine ⟨_, rfl, ?_⟩
  rw [payload, Branch.encodeList_eq, encodeOption_eq]
  exact fields.decoder.congr
    (by simp [Expr.Finite, Branch.finiteList_iff, finiteOption_iff, and_assoc])

end Forms

/-! ## All expressions -/

mutual

theorem payloadRestored : ∀ {e : Expr}, e.Valid → ∀ k ≤ Decoder.nesting + 1, e.PayloadRestored k
  | .literal .., hv, _, _ => literal_restored hv
  | .column .., hn, _, _ => column_restored hn
  | .unary .., hv, k, hk =>
    unary_restored hv.1 (restoredBy_decoderTo (payloadRestored hv.2) k hk) hk
  | .binary .., hv, k, hk =>
    binary_restored (restoredBy_decoderTo (payloadRestored hv.1) k hk)
      (restoredBy_decoderTo (payloadRestored hv.2) k hk)
  | .between .., hv, k, hk =>
    between_restored (restoredBy_decoderTo (payloadRestored hv.1) k hk)
      (restoredBy_decoderTo (payloadRestored hv.2.1) k hk)
      (restoredBy_decoderTo (payloadRestored hv.2.2) k hk)
  | .isIn _ _ ⟨_, _⟩, hv, k, hk =>
    isIn_restored (restoredBy_decoderTo (payloadRestored hv.1) k hk)
      (InList.restoresWith hv.2 fun _ he => restoredList hv.2.2 he k hk)
  | .call .., hv, k, hk => call_restored hv.1 fun _ he => restoredList hv.2 he k hk
  | .case _ none .., hv, k, hk =>
    searchedCase_restored (fun _ hb => restoredBranches hv.2.1 hb k hk)
      fun _ he => restoredOption hv.2.2 he k hk
  | .case _ (some _) .., hv, k, hk =>
    simpleCase_restored (restoredBy_decoderTo (payloadRestored hv.1) k hk)
      (fun _ hb => restoredBranches hv.2.1 hb k hk) fun _ he => restoredOption hv.2.2 he k hk
  | .list ⟨_, _⟩, hv, k, hk => by
    have list := InList.restoresWith hv fun e he => restoredList hv.2 he k hk
    exact ⟨_, rfl, list.map Expr.list⟩
  | .branch ⟨l, c, r⟩, hv, k, hk => by
    have condition := restoredBy_decoderTo (payloadRestored hv.1) k hk
    have result := restoredBy_decoderTo (payloadRestored hv.2) k hk
    have branch := Branch.restoresWith (l := l) condition result
    exact ⟨_, rfl, branch.map Expr.branch⟩

theorem restoredOption : ∀ {e? : Option Expr}, ValidOption e? → ∀ {e : Expr}, e ∈ e? →
    ∀ k ≤ Decoder.nesting + 1, e.RestoredBy (decoderTo k) k
  | some e, hv, e', he, k, hk => by
    rw [← Option.mem_some_iff.mp he]
    exact restoredBy_decoderTo (payloadRestored hv) k hk

theorem restoredBranches : ∀ {bs : List Branch}, Branch.ValidList bs → ∀ {b : Branch}, b ∈ bs →
    ∀ k ≤ Decoder.nesting + 1, (Branch.decoderWith (decoderTo k)).Restores k b.encode b b.Finite
  | ⟨l, c, r⟩ :: bs, hv, b, hb, k, hk => by
    rcases List.mem_cons.mp hb with first | hb
    · have condition := restoredBy_decoderTo (payloadRestored hv.1.1) k hk
      have result := restoredBy_decoderTo (payloadRestored hv.1.2) k hk
      rw [first]
      exact Branch.restoresWith condition result
    · exact restoredBranches hv.2 hb k hk

theorem restoredList : ∀ {es : List Expr}, ValidList es → ∀ {e : Expr}, e ∈ es →
    ∀ k ≤ Decoder.nesting + 1, e.RestoredBy (decoderTo k) k
  | e :: es, hv, e', he, k, hk => by
    rcases List.mem_cons.mp he with first | he
    · rw [first]
      exact restoredBy_decoderTo (payloadRestored hv.1) k hk
    · exact restoredList hv.2 he k hk

end

theorem restores {e : Expr} (he : e.Valid) (hb : bound ≤ Decoder.nesting + 1) :
    decoder.Restores bound e.encode e e.Finite :=
  (restoredBy_decoderTo (payloadRestored he) (Decoder.nesting + 1) (Nat.le_refl _)).mono hb

end Expr

theorem InList.restores {xs : InList} (hx : xs.Valid) (hb : bound ≤ Decoder.nesting + 1) :
    decoder.Restores bound xs.encode xs xs.Finite := by
  rcases xs with ⟨l, es⟩
  exact restoresWith hx fun e he => Expr.restores (Expr.validList_iff.mp hx.2 e he) hb

theorem Branch.restores {b : Branch} (hv : b.Valid) (hb : bound ≤ Decoder.nesting + 1) :
    decoder.Restores bound b.encode b b.Finite := by
  rcases b with ⟨l, c, r⟩
  exact restoresWith (Expr.restores hv.1 hb) (Expr.restores hv.2 hb)

end SqlTree
