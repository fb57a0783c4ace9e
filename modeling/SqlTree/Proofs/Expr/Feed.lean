import Mathlib.Logic.Function.Basic
import SqlTree.Proofs.Expr.Canonical

/-!
# What the feed of an expression tells

A feed tells the canonical form of its value, and where it ends itself: whatever follows two feeds,
they agree exactly when the canonical forms do. So expressions have the same feed exactly when they
are the same.
-/

namespace SqlTree

namespace Feed

variable {α β : Type} {feed : α → Feed} {key : α → β}

/-- Whatever follows them, the feeds of two values agree exactly when `key` gives the same for both
values and the same follows. -/
abbrev Tells (feed : α → Feed) (key : α → β) : Prop :=
  ∀ a b r s, feed a ++ r = feed b ++ s ↔ key a = key b ∧ r = s

theorem Tells.feed_eq_iff (h : Tells feed key) {a b : α} : feed a = feed b ↔ key a = key b := by
  have alone := h a b [] []
  simpa using alone

theorem tells_ofBool : Tells ofBool id := by
  intro a b r s
  cases a <;> cases b <;> simp [ofBool]

theorem tells_text : Tells (fun text => [.text text]) id := by
  intro a b r s
  simp

theorem tells_ofOption (h : Tells feed key) : Tells (ofOption feed) (Option.map key) := by
  intro a? b? r s
  cases a? <;> cases b? <;> simp [ofOption, h]

theorem Tells.flatMap (h : Tells feed key) (as bs : List α) (r s : Feed) :
    as.length = bs.length ∧ as.flatMap feed ++ r = bs.flatMap feed ++ s ↔
      as.map key = bs.map key ∧ r = s := by
  induction as generalizing bs with
  | nil => cases bs <;> simp
  | cons a as ih =>
    cases bs with
    | nil => simp
    | cons b bs =>
      simp only [List.length_cons, Nat.add_right_cancel_iff, List.flatMap_cons, List.append_assoc,
        h, List.map_cons, List.cons.injEq, and_assoc, ← ih]
      exact and_left_comm

/-- The length stands before the members, so it is known where a list ends. -/
theorem tells_ofList (h : Tells feed key) : Tells (ofList feed) (List.map key) := by
  intro as bs r s
  simp [ofList, h.flatMap]

end Feed

open Feed

/-! ## Parts of expressions -/

theorem Sign.ctorIdx_inj {a b : Sign} : a.ctorIdx = b.ctorIdx ↔ a = b :=
  (Function.LeftInverse.injective ofNat_ctorIdx).eq_iff

theorem ArithmeticOperator.ctorIdx_inj {a b : ArithmeticOperator} :
    a.ctorIdx = b.ctorIdx ↔ a = b := (Function.LeftInverse.injective ofNat_ctorIdx).eq_iff

theorem ComparisonOperator.ctorIdx_inj {a b : ComparisonOperator} :
    a.ctorIdx = b.ctorIdx ↔ a = b := (Function.LeftInverse.injective ofNat_ctorIdx).eq_iff

theorem LogicalOperator.ctorIdx_inj {a b : LogicalOperator} :
    a.ctorIdx = b.ctorIdx ↔ a = b := (Function.LeftInverse.injective ofNat_ctorIdx).eq_iff

theorem Name.tells_feed : Tells Name.feed id := by
  intro a b r s
  cases a
  cases b
  simp [feed, tells_ofList tells_text]

theorem Literal.tells_feed : Tells Literal.feed Literal.canonical := by
  intro a b r s
  cases a with
  | boolean v => cases b <;> simp [feed, canonical, tells_ofBool]
  | integer v =>
    rcases v with ⟨v⟩
    cases b with
    | integer w =>
      rcases w with ⟨w⟩
      simp [feed, canonical, UInt32.toNat_inj, Int32.ofUInt32.injEq]
    | _ => simp [feed, canonical]
  | long v =>
    rcases v with ⟨v⟩
    cases b with
    | long w =>
      rcases w with ⟨w⟩
      simp [feed, canonical, UInt64.toNat_inj, Int64.ofUInt64.injEq]
    | _ => simp [feed, canonical]
  | double v =>
    have bits {d e : Double} : d.bits = e.bits ↔ d = e := (Double.mk.injEq ..).to_iff.symm
    cases b <;> simp [feed, canonical, UInt64.toNat_inj, bits]
  | null | decimal | string => cases b <;> simp [feed, canonical]

mutual

theorem SqlType.tells_feed : ∀ (a b : SqlType) (r s : Feed),
    a.feed ++ r = b.feed ++ s ↔ a = b ∧ r = s
  | .array t, b, r, s => by cases b <;> simp [SqlType.feed, SqlType.tells_feed t]
  | .map t, b, r, s => by cases b <;> simp [SqlType.feed, SqlType.tells_feed t]
  | .struct fs, b, r, s => by cases b <;> simp [SqlType.feed, SqlType.tells_feedFields fs]
  | .decimal .., b, _, _ => by
    cases b <;> simp [SqlType.feed, UInt32.toNat_inj, and_assoc]
  | .boolean, b, _, _ | .integer, b, _, _ | .bigint, b, _, _ | .double, b, _, _
  | .string, b, _, _ => by cases b <;> simp [SqlType.feed]

theorem SqlType.tells_feedFields : ∀ (fs gs : List StructField) (r s : Feed),
    fs.length = gs.length ∧ SqlType.feedFields fs ++ r = SqlType.feedFields gs ++ s ↔
      fs = gs ∧ r = s
  | [], gs, _, _ => by cases gs <;> simp [SqlType.feedFields]
  | ⟨n, t⟩ :: fs, gs, r, s => by
    rcases gs with _ | ⟨⟨n', t'⟩, gs⟩
    · simp
    · simp only [List.length_cons, Nat.add_right_cancel_iff, SqlType.feedFields,
        List.append_assoc, List.cons_append, List.cons.injEq, Atom.text.injEq,
        SqlType.tells_feed t, StructField.mk.injEq, and_assoc,
        ← SqlType.tells_feedFields fs gs]
      constructor
      · rintro ⟨len, name, type, others⟩
        exact ⟨name, type, len, others⟩
      · rintro ⟨name, type, len, others⟩
        exact ⟨len, name, type, others⟩

end

theorem UnaryOperator.tells_feed : Tells UnaryOperator.feed id := by
  intro a b r s
  cases a <;> cases b <;> simp [feed, Sign.ctorIdx_inj, SqlType.tells_feed]

theorem BinaryOperator.tells_feed : Tells BinaryOperator.feed id := by
  intro a b r s
  cases a <;> cases b <;> simp [feed, ArithmeticOperator.ctorIdx_inj,
    ComparisonOperator.ctorIdx_inj, LogicalOperator.ctorIdx_inj]

/-! ## Expressions -/

mutual

theorem Expr.tells_feed : ∀ (a b : Expr) (r s : Feed),
    a.feed ++ r = b.feed ++ s ↔ a.canonical = b.canonical ∧ r = s
  | .literal _ v, b, _, _ => by
    cases b <;> simp [Expr.feed, Expr.canonical, Literal.tells_feed]
  | .column _ n, b, _, _ => by
    cases b <;> simp [Expr.feed, Expr.canonical, Name.tells_feed]
  | .unary _ op e, b, _, _ => by
    cases b <;> simp [Expr.feed, Expr.canonical, UnaryOperator.tells_feed,
      Expr.tells_feed e, and_assoc]
  | .binary _ op x y, b, _, _ => by
    cases b <;> simp [Expr.feed, Expr.canonical, BinaryOperator.tells_feed,
      Expr.tells_feed x, Expr.tells_feed y, and_assoc]
  | .between _ v x y, b, _, _ => by
    cases b <;> simp [Expr.feed, Expr.canonical, Expr.tells_feed v,
      Expr.tells_feed x, Expr.tells_feed y, and_assoc]
  | .isIn _ v xs, b, _, _ => by
    cases b <;> simp [Expr.feed, Expr.canonical, Expr.tells_feed v,
      InList.tells_feed xs, and_assoc]
  | .call _ f xs, b, _, _ => by
    cases b <;> simp [Expr.feed, Expr.canonical, Name.tells_feed,
      Expr.tells_feedList xs, and_assoc]
  | .case _ o bs e, b, _, _ => by
    cases b <;> simp [Expr.feed, Expr.canonical, Expr.tells_feedOption o,
      Branch.tells_feedList bs, Expr.tells_feedOption e, and_assoc]
  | .list xs, b, _, _ => by
    cases b <;> simp [Expr.feed, Expr.canonical, InList.tells_feed xs]
  | .branch x, b, _, _ => by
    cases b <;> simp [Expr.feed, Expr.canonical, Branch.tells_feed x]

theorem InList.tells_feed : ∀ (a b : InList) (r s : Feed),
    a.feed ++ r = b.feed ++ s ↔ a.canonical = b.canonical ∧ r = s
  | ⟨_, xs⟩, ⟨_, _⟩, _, _ => by
    simp [InList.feed, InList.canonical, Expr.tells_feedList xs]

theorem Branch.tells_feed : ∀ (a b : Branch) (r s : Feed),
    a.feed ++ r = b.feed ++ s ↔ a.canonical = b.canonical ∧ r = s
  | ⟨_, c, e⟩, ⟨_, _, _⟩, _, _ => by
    simp [Branch.feed, Branch.canonical, Expr.tells_feed c, Expr.tells_feed e,
      and_assoc]

theorem Expr.tells_feedOption : ∀ (a b : Option Expr) (r s : Feed),
    Expr.feedOption a ++ r = Expr.feedOption b ++ s ↔
      Expr.canonicalOption a = Expr.canonicalOption b ∧ r = s
  | none, b, _, _ => by cases b <;> simp [Expr.feedOption, Expr.canonicalOption]
  | some e, b, _, _ => by
    cases b <;> simp [Expr.feedOption, Expr.canonicalOption, Expr.tells_feed e]

theorem Expr.tells_feedList : ∀ (as bs : List Expr) (r s : Feed),
    as.length = bs.length ∧ Expr.feedList as ++ r = Expr.feedList bs ++ s ↔
      Expr.canonicalList as = Expr.canonicalList bs ∧ r = s
  | [], bs, _, _ => by cases bs <;> simp [Expr.feedList, Expr.canonicalList]
  | a :: as, [], _, _ => by simp [Expr.canonicalList]
  | a :: as, b :: bs, r, s => by
    simp only [List.length_cons, Nat.add_right_cancel_iff, Expr.feedList, List.append_assoc,
      Expr.tells_feed a, Expr.canonicalList, List.cons.injEq, and_assoc,
      ← Expr.tells_feedList as bs]
    exact and_left_comm

theorem Branch.tells_feedList : ∀ (as bs : List Branch) (r s : Feed),
    as.length = bs.length ∧ Branch.feedList as ++ r = Branch.feedList bs ++ s ↔
      Branch.canonicalList as = Branch.canonicalList bs ∧ r = s
  | [], bs, _, _ => by cases bs <;> simp [Branch.feedList, Branch.canonicalList]
  | a :: as, [], _, _ => by simp [Branch.canonicalList]
  | a :: as, b :: bs, r, s => by
    simp only [List.length_cons, Nat.add_right_cancel_iff, Branch.feedList, List.append_assoc,
      Branch.tells_feed a, Branch.canonicalList, List.cons.injEq, and_assoc,
      ← Branch.tells_feedList as bs]
    exact and_left_comm

end

end SqlTree
