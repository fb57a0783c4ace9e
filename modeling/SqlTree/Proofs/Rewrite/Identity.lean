import SqlTree.Proofs.Rewrite.Run
import SqlTree.Rewrite.Overrides

/-!
# The default rewrite

Rewriting a valid tree without any treatment of its own gives the same tree back: the same forms,
names and values, the same children in the same order, and every location where it was.
-/

namespace SqlTree.Rewriter

open Rewrite

variable {σ : Type}

theorem process_identity {n : Node} (hn : n.Valid) (s : Session σ) :
    (identity.process n).runFrom s = (.ok n, s) := by
  induction n using Node.childInduction with
  | step n ih =>
    rw [process_eq]
    exact descend_eq_self hn fun c hc => ih c hc (hn.child hc)

/-- The default rewrite of a valid tree gives exactly that tree, from any session and in any
context. -/
theorem rewrite_identity_eq_self {γ : Type} {n : Node} (hn : n.Valid) (context : γ)
    (s : Session σ) :
    (identity.rewrite n).runFrom s = (.ok n, ⟨(s.journal.push (.started n.kind)).push
      (.finished n.kind), s.data⟩) ∧
    (rewriteByDefault n context).runFrom s = (.ok n, ⟨(s.journal.push (.started n.kind)).push
      (.finished n.kind), s.data⟩) := by
  have same : (identity.rewrite n).runFrom s = (.ok n,
      ⟨(s.journal.push (.started n.kind)).push (.finished n.kind), s.data⟩) := by
    rw [runFrom_rewrite, process_identity hn]
  exact ⟨same, same⟩

/-- A `CUBE` that was read from line 3 and lists one of its columns twice. -/
theorem rewrite_identity_cube :
    let a : Expr := .column (.of 3 10) ⟨["t", "a"]⟩
    let b : Expr := .column (.of 3 15) ⟨["b"]⟩
    let n : Node := .groupBy ⟨.of 3 1, [.cube (.of 3 7) [a, b, a]]⟩
    n.Valid ∧ ((rewriteByDefault n "context").runFrom (⟨#[], ()⟩ : Session Unit)).1 = .ok n := by
  intro a b n
  have hn : n.Valid := by
    have few : (GroupingSet.of [a, b, a]).length ≤ GroupingElement.cubeLimit := by decide
    simp [n, Node.Valid, GroupBy.Valid, GroupingElement.Valid, few, a, b, Expr.Valid, Name.Valid]
  exact ⟨hn, by rw [(rewrite_identity_eq_self hn "context" ⟨#[], ()⟩).2]⟩

end SqlTree.Rewriter
