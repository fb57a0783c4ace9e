import SqlTree.Draft.Expr
import SqlTree.Proofs.Checked
import SqlTree.Proofs.Except

/-!
# Expressions built from their drafts

An expression comes back from its own draft, the very same, exactly if it is valid: what can be
asked of it is all there is to it, and the constructors accept what they once gave.
-/

namespace SqlTree

/-! ## Parts of expressions -/

theorem Name.of_parts_iff {n : Name} : of n.parts = .ok n ↔ n.Valid :=
  of_eq_ok.trans (and_iff_right rfl)

theorem Literal.check_iff {a : Literal} : a.check = .ok a ↔ a.Valid :=
  check_eq_ok.trans (and_iff_right rfl)

namespace SqlType

mutual

theorem build_iff : ∀ t : SqlType, t.build = .ok t ↔ t.Valid
  | decimal _ _ => decimalOf_eq_ok.trans (and_iff_right rfl)
  | array element => (Except.bind_pure_eq_ok array.inj).trans (build_iff element)
  | map value => (Except.bind_pure_eq_ok map.inj).trans (build_iff value)
  | struct fields => (Except.bind_pure_eq_ok struct.inj).trans (buildFields_iff fields)
  | .boolean | .integer | .bigint | .double | .string => iff_of_true rfl trivial

theorem buildFields_iff : ∀ fields : List StructField,
    StructField.buildList fields = .ok fields ↔ ValidFields fields
  | [] => iff_of_true rfl trivial
  | ⟨name, type⟩ :: fields => by
    rw [ValidFields, ← build_iff type, ← buildFields_iff fields]
    simp [-bind_pure_comp, StructField.buildList, Except.bind_eq_ok]

end

end SqlType

/-! ## Expressions -/

namespace Expr

mutual

theorem build_draft_iff : ∀ e : Expr, e.draft.build = .ok e ↔ e.Valid
  | literal l v => by
    rw [Expr.Valid, ← Literal.check_iff]
    simp [-bind_pure_comp, draft, Draft.build, Except.bind_eq_ok, ofLiteral, withLocation]
  | column l n => by
    rw [Expr.Valid, ← Name.of_parts_iff]
    simp [-bind_pure_comp, draft, Draft.build, Except.bind_eq_ok, ofColumn, withLocation]
  | unary l op e => by
    have operand := build_draft_iff e
    rw [Expr.Valid, ← operand]
    cases op with
    | sign | isNull | isNotNull | not =>
      simp [-bind_pure_comp, draft, Draft.build, Except.bind_eq_ok, negation, withLocation,
        UnaryOperator.Valid]
    | cast type =>
      simp [-bind_pure_comp, draft, Draft.build, Except.bind_eq_ok, withLocation,
        UnaryOperator.Valid, ← SqlType.build_iff, and_comm]
    | field name =>
      simp [-bind_pure_comp, draft, Draft.build, Except.bind_eq_ok, fieldOf_eq_ok, withLocation,
        UnaryOperator.Valid, and_comm]
  | binary l op a b => by
    have left := build_draft_iff a
    have right := build_draft_iff b
    rw [Expr.Valid, ← left, ← right]
    cases op <;> simp [-bind_pure_comp, draft, Draft.build, Except.bind_eq_ok, withLocation]
  | between l v a b => by
    have value := build_draft_iff v
    have least := build_draft_iff a
    have most := build_draft_iff b
    rw [Expr.Valid, ← value, ← least, ← most]
    simp [-bind_pure_comp, draft, Draft.build, Except.bind_eq_ok, withLocation]
  | isIn l v xs => by
    have value := build_draft_iff v
    have list := build_draftInList_iff xs
    rw [Expr.Valid, ← value, ← list]
    simp [-bind_pure_comp, draft, Draft.build, Except.bind_eq_ok, withLocation]
  | call l f xs => by
    have arguments := build_draftList_iff xs
    rw [Expr.Valid, ← Name.of_parts_iff, ← arguments]
    simp [-bind_pure_comp, draft, Draft.build, Except.bind_eq_ok, withLocation]
  | case l none bs e? => by
    have branches := build_draftBranches_iff bs
    have otherwise := build_draftOption_iff e?
    rw [Expr.Valid, ← branches, ← otherwise]
    simp [-bind_pure_comp, draft, Draft.build, Except.bind_eq_ok, withLocation]
  | case l (some o) bs e? => by
    have operand := build_draft_iff o
    have branches := build_draftBranches_iff bs
    have otherwise := build_draftOption_iff e?
    rw [Expr.Valid, ValidOption, ← operand, ← branches, ← otherwise]
    simp [-bind_pure_comp, draft, Draft.build, Except.bind_eq_ok, withLocation]
  | list xs => (Except.bind_pure_eq_ok list.inj).trans (build_draftInList_iff xs)
  | branch b => (Except.bind_pure_eq_ok branch.inj).trans (build_draftBranch_iff b)

theorem build_draftInList_iff : ∀ xs : InList, xs.draft.build = .ok xs ↔ xs.Valid
  | ⟨l, es⟩ => by
    have values := build_draftList_iff es
    rw [InList.Valid, ← values]
    simp [-bind_pure_comp, InList.draft, InList.Draft.build, Except.bind_eq_ok, InList.of_eq_ok,
      and_comm]

theorem build_draftBranch_iff : ∀ b : Branch, b.draft.build = .ok b ↔ b.Valid
  | ⟨l, c, r⟩ => by
    have condition := build_draft_iff c
    have result := build_draft_iff r
    rw [Branch.Valid, ← condition, ← result]
    simp [-bind_pure_comp, Branch.draft, Branch.Draft.build, Except.bind_eq_ok]

theorem build_draftOption_iff : ∀ e? : Option Expr,
    Draft.buildOption (draftOption e?) = .ok e? ↔ ValidOption e?
  | none => iff_of_true rfl trivial
  | some e => by
    have value := build_draft_iff e
    rw [ValidOption, ← value]
    simp [-bind_pure_comp, draftOption, Draft.buildOption, Except.bind_eq_ok]

theorem build_draftList_iff : ∀ es : List Expr,
    Draft.buildList (draftList es) = .ok es ↔ ValidList es
  | [] => iff_of_true rfl trivial
  | e :: es => by
    have first := build_draft_iff e
    have rest := build_draftList_iff es
    rw [ValidList, ← first, ← rest]
    simp [-bind_pure_comp, draftList, Draft.buildList, Except.bind_eq_ok]

theorem build_draftBranches_iff : ∀ bs : List Branch,
    Branch.Draft.buildList (Branch.draftList bs) = .ok bs ↔ Branch.ValidList bs
  | [] => iff_of_true rfl trivial
  | b :: bs => by
    have first := build_draftBranch_iff b
    have rest := build_draftBranches_iff bs
    rw [Branch.ValidList, ← first, ← rest]
    simp [-bind_pure_comp, Branch.draftList, Branch.Draft.buildList, Except.bind_eq_ok]

end

end Expr

end SqlTree
