import SqlTree.Proofs.Expr.Canonical

/-!
# Flipped comparisons

An expression says the same when in every comparison in it, at every depth, the operands change
places and the operator is turned round. Turning all of them round twice gives the expression back,
and it makes no difference to it which locations the expressions have.
-/

namespace SqlTree

mutual

/-- The expression with every comparison in it turned round. -/
def Expr.flipped : Expr → Expr
  | .literal l v => .literal l v
  | .column l n => .column l n
  | .unary l op e => .unary l op e.flipped
  | .binary l (.comparison op) a b => .binary l (.comparison op.flip) b.flipped a.flipped
  | .binary l op a b => .binary l op a.flipped b.flipped
  | .between l v a b => .between l v.flipped a.flipped b.flipped
  | .isIn l v xs => .isIn l v.flipped xs.flipped
  | .call l f xs => .call l f (Expr.flippedList xs)
  | .case l o bs e => .case l (Expr.flippedOption o) (Branch.flippedList bs) (Expr.flippedOption e)
  | .list xs => .list xs.flipped
  | .branch b => .branch b.flipped
termination_by structural e => e

def InList.flipped : InList → InList
  | ⟨l, xs⟩ => ⟨l, Expr.flippedList xs⟩
termination_by structural xs => xs

def Branch.flipped : Branch → Branch
  | ⟨l, c, r⟩ => ⟨l, c.flipped, r.flipped⟩
termination_by structural b => b

def Expr.flippedOption : Option Expr → Option Expr
  | none => none
  | some e => some e.flipped
termination_by structural e => e

def Expr.flippedList : List Expr → List Expr
  | [] => []
  | e :: es => e.flipped :: Expr.flippedList es
termination_by structural es => es

def Branch.flippedList : List Branch → List Branch
  | [] => []
  | b :: bs => b.flipped :: Branch.flippedList bs
termination_by structural bs => bs

end

theorem Expr.flippedOption_eq (e? : Option Expr) : flippedOption e? = e?.map flipped := by
  cases e? <;> rfl

theorem Expr.flippedList_eq (es : List Expr) : flippedList es = es.map flipped := by
  induction es with
  | nil => rfl
  | cons e es ih => rw [flippedList, ih, List.map_cons]

theorem Branch.flippedList_eq (bs : List Branch) : flippedList bs = bs.map flipped := by
  induction bs with
  | nil => rfl
  | cons b bs ih => rw [flippedList, ih, List.map_cons]

/-! ## Turned round twice -/

mutual

theorem Expr.flipped_flipped : ∀ e : Expr, e.flipped.flipped = e
  | .literal .. | .column .. => rfl
  | .unary _ _ e => by simp only [Expr.flipped, Expr.flipped_flipped e]
  | .binary _ op a b => by
    cases op <;> simp only [Expr.flipped, Expr.flipped_flipped a, Expr.flipped_flipped b,
      ComparisonOperator.flip_flip]
  | .between _ v a b => by
    simp only [Expr.flipped, Expr.flipped_flipped v, Expr.flipped_flipped a,
      Expr.flipped_flipped b]
  | .isIn _ v xs => by simp only [Expr.flipped, Expr.flipped_flipped v, InList.flipped_flipped xs]
  | .call _ _ xs => by simp only [Expr.flipped, Expr.flippedList_flippedList xs]
  | .case _ o bs e => by
    simp only [Expr.flipped, Expr.flippedOption_flippedOption o,
      Branch.flippedList_flippedList bs, Expr.flippedOption_flippedOption e]
  | .list xs => by simp only [Expr.flipped, InList.flipped_flipped xs]
  | .branch b => by simp only [Expr.flipped, Branch.flipped_flipped b]

theorem InList.flipped_flipped : ∀ xs : InList, xs.flipped.flipped = xs
  | ⟨_, xs⟩ => by simp only [InList.flipped, Expr.flippedList_flippedList xs]

theorem Branch.flipped_flipped : ∀ b : Branch, b.flipped.flipped = b
  | ⟨_, c, r⟩ => by
    simp only [Branch.flipped, Expr.flipped_flipped c, Expr.flipped_flipped r]

theorem Expr.flippedOption_flippedOption : ∀ e? : Option Expr,
    Expr.flippedOption (Expr.flippedOption e?) = e?
  | none => rfl
  | some e => by simp only [Expr.flippedOption, Expr.flipped_flipped e]

theorem Expr.flippedList_flippedList : ∀ es : List Expr,
    Expr.flippedList (Expr.flippedList es) = es
  | [] => rfl
  | e :: es => by
    simp only [Expr.flippedList, Expr.flipped_flipped e, Expr.flippedList_flippedList es]

theorem Branch.flippedList_flippedList : ∀ bs : List Branch,
    Branch.flippedList (Branch.flippedList bs) = bs
  | [] => rfl
  | b :: bs => by
    simp only [Branch.flippedList, Branch.flipped_flipped b, Branch.flippedList_flippedList bs]

end

theorem Expr.flipped_comp_flipped : Expr.flipped ∘ Expr.flipped = id :=
  funext Expr.flipped_flipped

/-! ## Expressions that are the same -/

mutual

theorem Expr.canonical_flipped : ∀ e : Expr, e.flipped.canonical = e.canonical.flipped
  | .literal .. | .column .. => rfl
  | .unary _ _ e => by simp only [Expr.flipped, Expr.canonical, Expr.canonical_flipped e]
  | .binary _ op a b => by
    cases op <;> simp only [Expr.flipped, Expr.canonical, Expr.canonical_flipped a,
      Expr.canonical_flipped b]
  | .between _ v a b => by
    simp only [Expr.flipped, Expr.canonical, Expr.canonical_flipped v, Expr.canonical_flipped a,
      Expr.canonical_flipped b]
  | .isIn _ v xs => by
    simp only [Expr.flipped, Expr.canonical, Expr.canonical_flipped v,
      InList.canonical_flipped xs]
  | .call _ _ xs => by simp only [Expr.flipped, Expr.canonical, Expr.canonicalList_flippedList xs]
  | .case _ o bs e => by
    simp only [Expr.flipped, Expr.canonical, Expr.canonicalOption_flippedOption o,
      Branch.canonicalList_flippedList bs, Expr.canonicalOption_flippedOption e]
  | .list xs => by simp only [Expr.flipped, Expr.canonical, InList.canonical_flipped xs]
  | .branch b => by simp only [Expr.flipped, Expr.canonical, Branch.canonical_flipped b]

theorem InList.canonical_flipped : ∀ xs : InList, xs.flipped.canonical = xs.canonical.flipped
  | ⟨_, xs⟩ => by
    simp only [InList.flipped, InList.canonical, Expr.canonicalList_flippedList xs]

theorem Branch.canonical_flipped : ∀ b : Branch, b.flipped.canonical = b.canonical.flipped
  | ⟨_, c, r⟩ => by
    simp only [Branch.flipped, Branch.canonical, Expr.canonical_flipped c,
      Expr.canonical_flipped r]

theorem Expr.canonicalOption_flippedOption : ∀ e? : Option Expr,
    Expr.canonicalOption (Expr.flippedOption e?) = Expr.flippedOption (Expr.canonicalOption e?)
  | none => rfl
  | some e => by simp only [Expr.flippedOption, Expr.canonicalOption, Expr.canonical_flipped e]

theorem Expr.canonicalList_flippedList : ∀ es : List Expr,
    Expr.canonicalList (Expr.flippedList es) = Expr.flippedList (Expr.canonicalList es)
  | [] => rfl
  | e :: es => by
    simp only [Expr.flippedList, Expr.canonicalList, Expr.canonical_flipped e,
      Expr.canonicalList_flippedList es]

theorem Branch.canonicalList_flippedList : ∀ bs : List Branch,
    Branch.canonicalList (Branch.flippedList bs) = Branch.flippedList (Branch.canonicalList bs)
  | [] => rfl
  | b :: bs => by
    simp only [Branch.flippedList, Branch.canonicalList, Branch.canonical_flipped b,
      Branch.canonicalList_flippedList bs]

end

/-- Turned round, the same expressions are the same. -/
theorem Expr.flipped_congr (a b : Expr) (h : (a == b) = true) :
    (a.flipped == b.flipped) = true := by
  rw [Expr.beq_iff] at h ⊢
  rw [a.canonical_flipped, b.canonical_flipped, h]

end SqlTree
