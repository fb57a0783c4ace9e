import SqlTree.Proofs.Codec.Admitted.Scalar
import SqlTree.Proofs.Codec.Expr

/-!
# Decoded expressions

A decoded expression is valid, its doubles are finite, and its encoding needs no more levels than
there were. The decoder of each form ensures this as long as the decoder of the expressions inside
does.
-/

namespace SqlTree

open Decoder (Admits AdmitsBehind Payload)
open Fields (Gives)

@[simp]
theorem Json.depth_located_le {l : Location} {ms : List (String × Json)} {k : Nat} :
    (located l ms).depth ≤ k + 1 ↔ l.encode.depth ≤ k ∧ ∀ m ∈ ms, m.2.depth ≤ k := by
  simp [located]

theorem Expr.tagged_payload (e : Expr) : Json.tagged e.tag e.payload = e.encode := rfl

theorem Expr.array_encodeList (es : List Expr) :
    Json.array (encodeList es) = Json.ofList encode es := congrArg Json.array (encodeList_eq es)

theorem Branch.array_encodeList (bs : List Branch) :
    Json.array (encodeList bs) = Json.ofList encode bs := congrArg Json.array (encodeList_eq bs)

variable {expr : Decoder Expr}

/-! ## Parts of expressions -/

theorem InList.check_eq_ok {xs xs' : InList} (h : check xs = .ok xs') :
    xs' = xs ∧ xs.values ≠ [] := by
  rcases xs with ⟨l, es⟩
  obtain ⟨checked, hc, rfl⟩ := Except.map_eq_ok.mp h
  obtain ⟨rfl, some_values⟩ := of_eq_ok.mp hc
  exact ⟨rfl, some_values⟩

theorem InList.admittedWith (h : expr.Admits Expr.encode fun e => e.Valid ∧ e.Finite) :
    (decoderWith expr).Admits encode fun xs => xs.Valid ∧ xs.Finite := by
  refine Gives.decoder (.checked (.seq (.field h.list) (.map Location.gives_field ?_)))
  rintro levels l hl es ⟨admitted, room⟩ xs hx
  obtain ⟨rfl, ne⟩ := check_eq_ok hx
  refine ⟨⟨⟨ne, Expr.validList_iff.mpr fun e he => (admitted e he).1⟩,
    Expr.finiteList_iff.mpr fun e he => (admitted e he).2⟩, ?_⟩
  simp [encode, Expr.array_encodeList, hl, room]

theorem Branch.admittedWith (h : expr.Admits Expr.encode fun e => e.Valid ∧ e.Finite) :
    (decoderWith expr).Admits encode fun b => b.Valid ∧ b.Finite := by
  refine Gives.decoder (.seq (.field h) (.seq (.field h) (.map Location.gives_field ?_)))
  rintro levels l hl c ⟨⟨valid, finite⟩, room⟩ r ⟨⟨valid', finite'⟩, room'⟩
  refine ⟨⟨⟨valid, valid'⟩, finite, finite'⟩, ?_⟩
  simp [encode, Expr.tagged_payload, hl, room, room']

/-! ## Forms of expressions -/

namespace Expr

/-- An expression that a form named `tag` may give. -/
def GivenBehind (tag : String) (levels : Nat) (e : Expr) : Prop :=
  ((e.Valid ∧ e.Finite) ∧ e.tag = tag) ∧ e.payload.depth ≤ levels

theorem gives_unaryFields (h : expr.Admits encode fun e => e.Valid ∧ e.Finite)
    {op : UnaryOperator} {operand : String} (valid : op.Valid)
    (members : ∀ j, op.members j = [(operand, j)]) :
    (unaryFields expr op operand).Gives fun levels => GivenBehind op.tag (levels + 1) := by
  refine .seq (.field h) (.map Location.gives_field ?_)
  rintro levels l hl e ⟨⟨hv, hf⟩, room⟩
  refine ⟨⟨⟨⟨valid, hv⟩, hf⟩, rfl⟩, ?_⟩
  simp [payload, members, tagged_payload, hl, room]

/-- The operator and the names of the operands are those of the form. -/
theorem gives_binaryFields (h : expr.Admits encode fun e => e.Valid ∧ e.Finite)
    {operator : Fields BinaryOperator} {tag left right : String}
    (hop : operator.Gives fun levels op => op.tag = tag ∧ ∀ a b : Json, a.depth ≤ levels →
      b.depth ≤ levels → ∀ m ∈ op.members a b, m.2.depth ≤ levels) :
    (binaryFields expr operator left right).Gives fun levels => GivenBehind tag (levels + 1) := by
  refine .seq (.field h) (.seq (.field h) (.seq hop (.map Location.gives_field ?_)))
  rintro levels l hl op ⟨named, members⟩ a ⟨⟨va, fa⟩, ra⟩ b ⟨⟨vb, fb⟩, rb⟩
  exact ⟨⟨⟨⟨va, vb⟩, fa, fb⟩, named⟩, Json.depth_located_le.mpr ⟨hl, members _ _ ra rb⟩⟩

theorem gives_fieldFields (h : expr.Admits encode fun e => e.Valid ∧ e.Finite) :
    (fieldFields expr).Gives fun levels => GivenBehind "Dereference" (levels + 1) := by
  refine .checked (.seq (.field .any) (.seq (.field h) (.map Location.gives_field ?_)))
  rintro levels l hl e ⟨⟨hv, hf⟩, room⟩ name - e' he
  obtain ⟨made, hm, rfl⟩ := Except.map_eq_ok.mp he
  obtain ⟨rfl, named⟩ := fieldOf_eq_ok.mp hm
  refine ⟨⟨⟨⟨named, hv⟩, hf⟩, rfl⟩, ?_⟩
  simp [withLocation, payload, UnaryOperator.members, tagged_payload, hl, room]

/-- The word for the operator is a member of its own. -/
theorem gives_operatorFields (h : expr.Admits encode fun e => e.Valid ∧ e.Finite) {α : Type}
    {d : Decoder α} {word : α → Json} {wrap : α → BinaryOperator} {tag left right : String}
    (hd : d.Admits word fun _ => True) (named : ∀ op, (wrap op).tag = tag)
    (members : ∀ op a b, (wrap op).members a b = [("operator", word op), (left, a), (right, b)]) :
    (binaryFields expr (wrap <$> Fields.field "operator" d) left right).Gives fun levels =>
      GivenBehind tag (levels + 1) := by
  refine gives_binaryFields h (.map (.field hd) ?_)
  rintro levels op ⟨-, room⟩
  refine ⟨named op, fun a b ha hb => ?_⟩
  simp [members, room, ha, hb]

/-- The form itself is the operator. -/
theorem gives_operandFields (h : expr.Admits encode fun e => e.Valid ∧ e.Finite)
    {op : BinaryOperator} {left right : String}
    (members : ∀ a b, op.members a b = [(left, a), (right, b)]) :
    (binaryFields expr (.always op) left right).Gives fun levels =>
      GivenBehind op.tag (levels + 1) := by
  refine gives_binaryFields h (.always fun levels => ⟨rfl, fun a b ha hb => ?_⟩)
  simp [members, ha, hb]

theorem gives_sign (h : expr.Admits encode fun e => e.Valid ∧ e.Finite) :
    ((fun l s e => unary l (.sign s) e) <$> Location.field <*> Fields.field "sign" Sign.decoder <*>
      Fields.field "value" expr).Gives fun levels =>
        GivenBehind "ArithmeticUnary" (levels + 1) := by
  refine .seq (.field h) (.seq (.field Sign.admitted) (.map Location.gives_field ?_))
  rintro levels l hl s ⟨-, hs⟩ e ⟨⟨valid, finite⟩, room⟩
  refine ⟨⟨⟨⟨trivial, valid⟩, finite⟩, rfl⟩, ?_⟩
  simp [payload, UnaryOperator.members, tagged_payload, hl, hs, room]

theorem gives_cast (h : expr.Admits encode fun e => e.Valid ∧ e.Finite) :
    ((fun l e t => unary l (.cast t) e) <$> Location.field <*> Fields.field "expression" expr <*>
      Fields.field "target_type" SqlType.decoder).Gives fun levels =>
        GivenBehind "Cast" (levels + 1) := by
  refine .seq (.field SqlType.admitted) (.seq (.field h) (.map Location.gives_field ?_))
  rintro levels l hl e ⟨⟨valid, finite⟩, room⟩ t ⟨ht, rt⟩
  refine ⟨⟨⟨⟨ht, valid⟩, finite⟩, rfl⟩, ?_⟩
  simp [payload, UnaryOperator.members, tagged_payload, hl, room, rt]

theorem gives_between (h : expr.Admits encode fun e => e.Valid ∧ e.Finite) :
    (between <$> Location.field <*> Fields.field "value" expr <*> Fields.field "min" expr <*>
      Fields.field "max" expr).Gives fun levels => GivenBehind "Between" (levels + 1) := by
  refine .seq (.field h) (.seq (.field h) (.seq (.field h) (.map Location.gives_field ?_)))
  rintro levels l hl v ⟨⟨vv, fv⟩, rv⟩ a ⟨⟨va, fa⟩, ra⟩ b ⟨⟨vb, fb⟩, rb⟩
  refine ⟨⟨⟨⟨vv, va, vb⟩, fv, fa, fb⟩, rfl⟩, ?_⟩
  simp [payload, tagged_payload, hl, rv, ra, rb]

theorem gives_isIn (h : expr.Admits encode fun e => e.Valid ∧ e.Finite) :
    (isIn <$> Location.field <*> Fields.field "value" expr <*>
      Fields.field "value_list" (InList.decoderWith expr)).Gives fun levels =>
        GivenBehind "In" (levels + 1) := by
  refine .seq (.field (InList.admittedWith h)) (.seq (.field h) (.map Location.gives_field ?_))
  rintro levels l hl v ⟨⟨vv, fv⟩, rv⟩ xs ⟨⟨vx, fx⟩, rx⟩
  refine ⟨⟨⟨⟨vv, vx⟩, fv, fx⟩, rfl⟩, ?_⟩
  simp [payload, tagged_payload, hl, rv, rx]

theorem gives_call (h : expr.Admits encode fun e => e.Valid ∧ e.Finite) :
    (call <$> Location.field <*> Fields.field "name" Name.decoder <*>
      Fields.field "arguments" expr.list).Gives fun levels =>
        GivenBehind "FunctionCall" (levels + 1) := by
  refine .seq (.field h.list) (.seq (.field Name.admitted) (.map Location.gives_field ?_))
  rintro levels l hl f ⟨hf, rf⟩ es ⟨admitted, room⟩
  refine ⟨⟨⟨⟨hf, validList_iff.mpr fun e he => (admitted e he).1⟩,
    finiteList_iff.mpr fun e he => (admitted e he).2⟩, rfl⟩, ?_⟩
  simp [payload, array_encodeList, hl, rf, room]

/-- A `CASE`, with an operand or without one, of admitted parts. -/
theorem givenBehind_case {levels : Nat} {l : Location} {o? e? : Option Expr} {bs : List Branch}
    (hl : l.encode.depth ≤ levels)
    (ho : ∀ o ∈ o?, (o.Valid ∧ o.Finite) ∧ o.encode.depth ≤ levels)
    (hb : (∀ b ∈ bs, b.Valid ∧ b.Finite) ∧ (Json.ofList Branch.encode bs).depth ≤ levels)
    (he : ∀ e ∈ e?, (e.Valid ∧ e.Finite) ∧ e.encode.depth ≤ levels) :
    GivenBehind (case l o? bs e?).tag (levels + 1) (case l o? bs e?) := by
  obtain ⟨admitted, room⟩ := hb
  have valid : (case l o? bs e?).Valid :=
    ⟨validOption_iff.mpr fun o h => (ho o h).1.1,
      Branch.validList_iff.mpr fun b h => (admitted b h).1,
      validOption_iff.mpr fun e h => (he e h).1.1⟩
  have finite : (case l o? bs e?).Finite :=
    ⟨finiteOption_iff.mpr fun o h => (ho o h).1.2,
      Branch.finiteList_iff.mpr fun b h => (admitted b h).2,
      finiteOption_iff.mpr fun e h => (he e h).1.2⟩
  refine ⟨⟨⟨valid, finite⟩, rfl⟩, ?_⟩
  have default : ∀ e ∈ e?, e.encode.depth ≤ levels := fun e h => (he e h).2
  cases o? with
  | none =>
    simpa [payload, operandMember, encodeOption_eq, Branch.array_encodeList, hl, room] using default
  | some o =>
    have operand := (ho o rfl).2
    simpa [payload, operandMember, encodeOption_eq, Branch.array_encodeList, tagged_payload, hl,
      room, operand] using default

theorem gives_simpleCase (h : expr.Admits encode fun e => e.Valid ∧ e.Finite) :
    ((fun l o bs e => case l (some o) bs e) <$> Location.field <*> Fields.field "operand" expr <*>
      Fields.field "when_clauses" (Branch.decoderWith expr).list <*>
      Fields.option "default_value" expr).Gives fun levels =>
        GivenBehind "SimpleCase" (levels + 1) := by
  refine .seq (.option h) (.seq (.field (Branch.admittedWith h).list) (.seq (.field h)
    (.map Location.gives_field ?_)))
  rintro levels l hl o ho bs hb e? he
  refine givenBehind_case hl (fun o' same => ?_) hb he
  rwa [← Option.mem_some_iff.mp same]

theorem gives_searchedCase (h : expr.Admits encode fun e => e.Valid ∧ e.Finite) :
    ((fun l bs e => case l none bs e) <$> Location.field <*>
      Fields.field "when_clauses" (Branch.decoderWith expr).list <*>
      Fields.option "default_value" expr).Gives fun levels =>
        GivenBehind "SearchedCase" (levels + 1) := by
  refine .seq (.option h) (.seq (.field (Branch.admittedWith h).list)
    (.map Location.gives_field ?_))
  rintro levels l hl bs hb e? he
  exact givenBehind_case hl nofun hb he

theorem gives_column : (column <$> Location.field <*>
    Fields.field "name" Name.decoder).Gives fun levels =>
      GivenBehind "QualifiedNameReference" (levels + 1) := by
  refine .seq (.field Name.admitted) (.map Location.gives_field ?_)
  rintro levels l hl n ⟨hn, room⟩
  exact ⟨⟨⟨hn, trivial⟩, rfl⟩, by simp [payload, hl, room]⟩

variable [Double.Reader]

theorem gives_literalFields : literalFields.Gives fun levels =>
    GivenBehind "Literal" (levels + 1) := by
  refine .seq (.field Literal.admitted) (.map Location.gives_field ?_)
  rintro levels l hl v ⟨admitted, room⟩
  exact ⟨⟨admitted, rfl⟩, by simp [payload, hl, room]⟩

/-! ## All expressions -/

theorem admits_alternatives (h : expr.Admits encode fun e => e.Valid ∧ e.Finite) :
    ∀ alternative ∈ alternatives expr,
      AdmitsBehind tag payload (fun e => e.Valid ∧ e.Finite) alternative := by
  unfold alternatives
  simp only [List.forall_mem_cons]
  refine ⟨?arithmetic, Gives.decoder (gives_sign h), ?comparison, ?logical,
    Gives.decoder (gives_between h), Gives.decoder (gives_isIn h), ?list, ?like, ?isNull,
    ?isNotNull, ?not, Gives.decoder (gives_call h), Gives.decoder (gives_cast h),
    Gives.decoder (gives_fieldFields h), ?subscript, Gives.decoder (gives_simpleCase h),
    Gives.decoder (gives_searchedCase h), ?branch, Gives.decoder gives_column,
    Gives.decoder gives_literalFields, nofun⟩
  case arithmetic =>
    exact Gives.decoder (gives_operatorFields h ArithmeticOperator.admitted (fun _ => rfl)
      fun _ _ _ => rfl)
  case comparison =>
    exact Gives.decoder (gives_operatorFields h ComparisonOperator.admitted (fun _ => rfl)
      fun _ _ _ => rfl)
  case logical =>
    exact Gives.decoder (gives_operatorFields h LogicalOperator.admitted (fun _ => rfl)
      fun _ _ _ => rfl)
  case list =>
    refine .map (InList.admittedWith h) ?_
    rintro levels xs ⟨admitted, room⟩
    exact ⟨⟨admitted, rfl⟩, room⟩
  case like => exact Gives.decoder (gives_operandFields h fun _ _ => rfl)
  case isNull => exact Gives.decoder (gives_unaryFields h trivial fun _ => rfl)
  case isNotNull => exact Gives.decoder (gives_unaryFields h trivial fun _ => rfl)
  case not => exact Gives.decoder (gives_unaryFields h trivial fun _ => rfl)
  case subscript => exact Gives.decoder (gives_operandFields h fun _ _ => rfl)
  case branch =>
    refine .map (Branch.admittedWith h) ?_
    rintro levels b ⟨admitted, room⟩
    exact ⟨⟨admitted, rfl⟩, room⟩

theorem admittedTo (k : Nat) : (decoderTo k).Admits encode fun e => e.Valid ∧ e.Finite := by
  induction k with
  | zero => exact Decoder.Gives.fail
  | succ k ih => exact Admits.tagged (admits_alternatives ih)

theorem admitted : decoder.Admits encode fun e => e.Valid ∧ e.Finite := admittedTo _

end Expr

variable [Double.Reader]

theorem InList.admitted : decoder.Admits encode fun xs => xs.Valid ∧ xs.Finite :=
  admittedWith Expr.admitted

theorem Branch.admitted : decoder.Admits encode fun b => b.Valid ∧ b.Finite :=
  admittedWith Expr.admitted

end SqlTree
