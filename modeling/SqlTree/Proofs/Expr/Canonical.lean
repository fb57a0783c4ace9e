import Mathlib.Data.List.Basic
import SqlTree.Expr.Same

/-!
# Canonical expressions

The canonical form of an expression has no locations, and each of its doubles stands for all that
are the same. Expressions are the same exactly when their canonical forms are equal, so being the
same is an equivalence; and canonical forms keep the feed, so what is the same has the same hash.
-/

namespace SqlTree

/-! ## Parts of expressions -/

namespace Double

variable {a b : Double}

theorem isNaN_canonical : a.canonical.isNaN = a.isNaN := by
  by_cases hn : a.isNaN = true
  · rw [canonical, if_pos hn, hn]
    rfl
  · rw [canonical, if_neg hn]
    split
    · rw [Bool.not_eq_true] at hn
      rw [hn]
      rfl
    · rfl

theorem canonical_of_isNaN (h : a.isNaN = true) : a.canonical = nan := if_pos h

theorem canonical_of_isZero (h : a.isZero = true) : a.canonical = zero := by
  have number : ¬ a.isNaN = true := by
    simp only [isZero, beq_iff_eq] at h
    simp [isNaN, h]
  rw [canonical, if_neg number, if_pos h]

theorem canonical_of_nonzero (hn : ¬ a.isNaN = true) (hz : ¬ a.isZero = true) :
    a.canonical = a := by
  rw [canonical, if_neg hn, if_neg hz]

@[simp]
theorem canonical_canonical (a : Double) : a.canonical.canonical = a.canonical := by
  by_cases hn : a.isNaN = true
  · rw [canonical_of_isNaN hn]
    rfl
  · by_cases hz : a.isZero = true
    · rw [canonical_of_isZero hz]
      rfl
    · rw [canonical_of_nonzero hn hz, canonical_of_nonzero hn hz]

theorem same_iff : (a == b) = true ↔ a.canonical = b.canonical := by
  show same a b = true ↔ _
  rw [same]
  by_cases ha : a.isNaN = true
  · rw [canonical_of_isNaN ha]
    by_cases hb : b.isNaN = true
    · simp [ha, hb, canonical_of_isNaN hb]
    · have differ : nan ≠ b.canonical := fun h => hb (by rw [← isNaN_canonical, ← h]; decide)
      simp [ha, hb, differ]
  · by_cases hb : b.isNaN = true
    · have differ : a.canonical ≠ nan := fun h => ha (by rw [← isNaN_canonical, h]; decide)
      simp [ha, hb, canonical_of_isNaN hb, differ]
    · have bits : a.bits = b.bits ↔ a = b := by rw [mk.injEq]
      rw [if_neg (by simp [ha, hb])]
      simp only [Bool.or_eq_true, Bool.and_eq_true, beq_iff_eq, bits]
      by_cases za : a.isZero = true <;> by_cases zb : b.isZero = true
      · rw [canonical_of_isZero za, canonical_of_isZero zb]
        exact iff_of_true (Or.inr ⟨za, zb⟩) rfl
      · rw [canonical_of_isZero za, canonical_of_nonzero hb zb]
        refine iff_of_false ?_ fun h => zb (by rw [← h]; rfl)
        rintro (rfl | ⟨-, h⟩)
        · exact zb za
        · exact zb h
      · rw [canonical_of_nonzero ha za, canonical_of_isZero zb]
        refine iff_of_false ?_ fun h => za (by rw [h]; rfl)
        rintro (rfl | ⟨h, -⟩)
        · exact za zb
        · exact za h
      · rw [canonical_of_nonzero ha za, canonical_of_nonzero hb zb]
        exact or_iff_left fun h => za h.1

end Double

namespace Literal

variable {a b : Literal}

/-- The literal with the double in it, if any, that stands for all that are the same. -/
def canonical : Literal → Literal
  | double d => double d.canonical
  | value => value

@[simp]
theorem canonical_canonical (a : Literal) : a.canonical.canonical = a.canonical := by
  cases a <;> simp [canonical]

theorem same_iff : (a == b) = true ↔ a.canonical = b.canonical := by
  show same a b = true ↔ _
  cases a <;> cases b <;> simp [same, canonical, Double.same_iff]

theorem feed_canonical (a : Literal) : a.canonical.feed = a.feed := by
  cases a <;> simp [canonical, feed]

end Literal

mutual

theorem SqlType.same_iff_eq : ∀ {a b : SqlType}, a.same b = true ↔ a = b
  | .array t, b => by cases b <;> simp [SqlType.same, SqlType.same_iff_eq (a := t)]
  | .map t, b => by cases b <;> simp [SqlType.same, SqlType.same_iff_eq (a := t)]
  | .struct fs, b => by cases b <;> simp [SqlType.same, SqlType.sameFields_iff_eq (a := fs)]
  | .boolean, b | .integer, b | .bigint, b | .double, b | .string, b | .decimal .., b => by
    cases b <;> simp [SqlType.same]

theorem SqlType.sameFields_iff_eq : ∀ {a b : List StructField},
    SqlType.sameFields a b = true ↔ a = b
  | [], b => by cases b <;> simp [SqlType.sameFields]
  | ⟨n, t⟩ :: fs, b => by
    rcases b with _ | ⟨⟨n', t'⟩, fs'⟩
    · simp [SqlType.sameFields]
    · simp [SqlType.sameFields, SqlType.same_iff_eq (a := t), SqlType.sameFields_iff_eq (a := fs)]

end

instance : LawfulBEq SqlType where
  rfl := SqlType.same_iff_eq.mpr rfl
  eq_of_beq := SqlType.same_iff_eq.mp

instance : LawfulBEq UnaryOperator where
  rfl {a} := by
    show UnaryOperator.same a a = true
    cases a <;> simp [UnaryOperator.same]
  eq_of_beq {a b} h := by
    replace h : UnaryOperator.same a b = true := h
    cases a <;> cases b <;> simp_all [UnaryOperator.same]

/-! ## Expressions -/

mutual

/-- The expression without locations, with doubles that stand for all that are the same. -/
def Expr.canonical : Expr → Expr
  | .literal _ v => .literal .unknown v.canonical
  | .column _ n => .column .unknown n
  | .unary _ op e => .unary .unknown op e.canonical
  | .binary _ op a b => .binary .unknown op a.canonical b.canonical
  | .between _ v a b => .between .unknown v.canonical a.canonical b.canonical
  | .isIn _ v xs => .isIn .unknown v.canonical xs.canonical
  | .call _ f xs => .call .unknown f (Expr.canonicalList xs)
  | .case _ o bs e =>
    .case .unknown (Expr.canonicalOption o) (Branch.canonicalList bs) (Expr.canonicalOption e)
  | .list xs => .list xs.canonical
  | .branch b => .branch b.canonical
termination_by structural e => e

def InList.canonical : InList → InList
  | ⟨_, xs⟩ => ⟨.unknown, Expr.canonicalList xs⟩
termination_by structural xs => xs

def Branch.canonical : Branch → Branch
  | ⟨_, c, r⟩ => ⟨.unknown, c.canonical, r.canonical⟩
termination_by structural b => b

def Expr.canonicalOption : Option Expr → Option Expr
  | none => none
  | some e => some e.canonical
termination_by structural e => e

def Expr.canonicalList : List Expr → List Expr
  | [] => []
  | e :: es => e.canonical :: Expr.canonicalList es
termination_by structural es => es

def Branch.canonicalList : List Branch → List Branch
  | [] => []
  | b :: bs => b.canonical :: Branch.canonicalList bs
termination_by structural bs => bs

end

theorem Expr.canonicalOption_eq (e? : Option Expr) : canonicalOption e? = e?.map canonical := by
  cases e? <;> rfl

theorem Expr.canonicalList_eq (es : List Expr) : canonicalList es = es.map canonical := by
  induction es with
  | nil => rfl
  | cons e es ih => rw [canonicalList, ih, List.map_cons]

theorem Branch.canonicalList_eq (bs : List Branch) : canonicalList bs = bs.map canonical := by
  induction bs with
  | nil => rfl
  | cons b bs ih => rw [canonicalList, ih, List.map_cons]

@[simp]
theorem Expr.length_canonicalList (es : List Expr) :
    (Expr.canonicalList es).length = es.length := by
  rw [canonicalList_eq, List.length_map]

@[simp]
theorem Branch.length_canonicalList (bs : List Branch) :
    (Branch.canonicalList bs).length = bs.length := by
  rw [canonicalList_eq, List.length_map]

mutual

/-- Expressions are the same exactly when their canonical forms are equal. -/
theorem Expr.same_iff : ∀ {a b : Expr}, a.same b = true ↔ a.canonical = b.canonical
  | .literal _ v, b => by
    cases b <;> simp [Expr.same, Expr.canonical, Literal.same_iff]
  | .column _ n, b => by
    cases b <;> simp [Expr.same, Expr.canonical]
  | .unary _ op e, b => by
    cases b <;> simp [Expr.same, Expr.canonical, Expr.same_iff (a := e)]
  | .binary _ op x y, b => by
    cases b <;> simp [Expr.same, Expr.canonical, Expr.same_iff (a := x), Expr.same_iff (a := y),
      and_assoc]
  | .between _ v x y, b => by
    cases b <;> simp [Expr.same, Expr.canonical, Expr.same_iff (a := v), Expr.same_iff (a := x),
      Expr.same_iff (a := y), and_assoc]
  | .isIn _ v xs, b => by
    cases b <;> simp [Expr.same, Expr.canonical, Expr.same_iff (a := v), InList.same_iff (a := xs)]
  | .call _ f xs, b => by
    cases b <;> simp [Expr.same, Expr.canonical, Expr.sameList_iff (a := xs)]
  | .case _ o bs e, b => by
    cases b <;> simp [Expr.same, Expr.canonical, Expr.sameOption_iff (a := o),
      Branch.sameList_iff (a := bs), Expr.sameOption_iff (a := e), and_assoc]
  | .list xs, b => by
    cases b <;> simp [Expr.same, Expr.canonical, InList.same_iff (a := xs)]
  | .branch x, b => by
    cases b <;> simp [Expr.same, Expr.canonical, Branch.same_iff (a := x)]

theorem InList.same_iff : ∀ {a b : InList}, a.same b = true ↔ a.canonical = b.canonical
  | ⟨_, xs⟩, ⟨_, _⟩ => by simp [InList.same, InList.canonical, Expr.sameList_iff (a := xs)]

theorem Branch.same_iff : ∀ {a b : Branch}, a.same b = true ↔ a.canonical = b.canonical
  | ⟨_, c, r⟩, ⟨_, _, _⟩ => by
    simp [Branch.same, Branch.canonical, Expr.same_iff (a := c), Expr.same_iff (a := r)]

theorem Expr.sameOption_iff : ∀ {a b : Option Expr},
    Expr.sameOption a b = true ↔ Expr.canonicalOption a = Expr.canonicalOption b
  | none, b => by cases b <;> simp [Expr.sameOption, Expr.canonicalOption]
  | some e, b => by
    cases b <;> simp [Expr.sameOption, Expr.canonicalOption, Expr.same_iff (a := e)]

theorem Expr.sameList_iff : ∀ {a b : List Expr},
    Expr.sameList a b = true ↔ Expr.canonicalList a = Expr.canonicalList b
  | [], b => by cases b <;> simp [Expr.sameList, Expr.canonicalList]
  | e :: es, b => by
    cases b <;> simp [Expr.sameList, Expr.canonicalList, Expr.same_iff (a := e),
      Expr.sameList_iff (a := es)]

theorem Branch.sameList_iff : ∀ {a b : List Branch},
    Branch.sameList a b = true ↔ Branch.canonicalList a = Branch.canonicalList b
  | [], b => by cases b <;> simp [Branch.sameList, Branch.canonicalList]
  | x :: xs, b => by
    cases b <;> simp [Branch.sameList, Branch.canonicalList, Branch.same_iff (a := x),
      Branch.sameList_iff (a := xs)]

end

theorem Expr.beq_iff {a b : Expr} : (a == b) = true ↔ a.canonical = b.canonical := Expr.same_iff

-- so the equality of expressions inherits its laws from that of canonical forms
instance : EquivBEq Expr where
  rfl := Expr.beq_iff.mpr rfl
  symm h := Expr.beq_iff.mpr (Expr.beq_iff.mp h).symm
  trans h h' := Expr.beq_iff.mpr ((Expr.beq_iff.mp h).trans (Expr.beq_iff.mp h'))

/-! ## Feeds -/

mutual

theorem Expr.feed_canonical : ∀ e : Expr, e.canonical.feed = e.feed
  | .literal _ v => by simp [Expr.canonical, Expr.feed, Literal.feed_canonical]
  | .column .. => rfl
  | .unary _ _ e => by simp [Expr.canonical, Expr.feed, Expr.feed_canonical e]
  | .binary _ _ a b => by
    simp [Expr.canonical, Expr.feed, Expr.feed_canonical a, Expr.feed_canonical b]
  | .between _ v a b => by
    simp [Expr.canonical, Expr.feed, Expr.feed_canonical v, Expr.feed_canonical a,
      Expr.feed_canonical b]
  | .isIn _ v xs => by
    simp [Expr.canonical, Expr.feed, Expr.feed_canonical v, InList.feed_canonical xs]
  | .call _ _ xs => by simp [Expr.canonical, Expr.feed, Expr.feedList_canonical xs]
  | .case _ o bs e => by
    simp [Expr.canonical, Expr.feed, Expr.feedOption_canonical o, Branch.feedList_canonical bs,
      Expr.feedOption_canonical e]
  | .list xs => by simp [Expr.canonical, Expr.feed, InList.feed_canonical xs]
  | .branch b => by simp [Expr.canonical, Expr.feed, Branch.feed_canonical b]

theorem InList.feed_canonical : ∀ xs : InList, xs.canonical.feed = xs.feed
  | ⟨_, xs⟩ => by simp [InList.canonical, InList.feed, Expr.feedList_canonical xs]

theorem Branch.feed_canonical : ∀ b : Branch, b.canonical.feed = b.feed
  | ⟨_, c, r⟩ => by
    simp [Branch.canonical, Branch.feed, Expr.feed_canonical c, Expr.feed_canonical r]

theorem Expr.feedOption_canonical : ∀ e : Option Expr,
    Expr.feedOption (Expr.canonicalOption e) = Expr.feedOption e
  | none => rfl
  | some e => by simp [Expr.canonicalOption, Expr.feedOption, Expr.feed_canonical e]

theorem Expr.feedList_canonical : ∀ es : List Expr,
    Expr.feedList (Expr.canonicalList es) = Expr.feedList es
  | [] => rfl
  | e :: es => by
    simp [Expr.canonicalList, Expr.feedList, Expr.feed_canonical e, Expr.feedList_canonical es]

theorem Branch.feedList_canonical : ∀ bs : List Branch,
    Branch.feedList (Branch.canonicalList bs) = Branch.feedList bs
  | [] => rfl
  | b :: bs => by
    simp [Branch.canonicalList, Branch.feedList, Branch.feed_canonical b,
      Branch.feedList_canonical bs]

end

/-- The same expressions have the same feed. -/
theorem Expr.feed_congr {a b : Expr} (h : (a == b) = true) : a.feed = b.feed := by
  rw [← a.feed_canonical, Expr.beq_iff.mp h, b.feed_canonical]

end SqlTree
