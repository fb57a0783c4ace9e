import SqlTree.Proofs.Node.Substituted
import SqlTree.Proofs.Rewrite.Run

/-!
# Steps of a replacement

Every expression is shown to the test. If it passes, another one is put in its place and counted;
otherwise, like any node that is no expression, it is rebuilt around its children.
-/

namespace SqlTree.Replacement

open Rewrite

variable {p : Replacement} {n : Node}

/-- What is put in the place of a match. -/
def put (p : Replacement) : Node → Node
  | .expression e => .expression (p.result e)
  | n => n

/-- The journal after the test was shown a node, if that is an expression. -/
def compared (n : Node) (journal : Array Event) : Array Event :=
  match n with
  | .expression e => journal.push (.compared e)
  | _ => journal

theorem exists_of_hits (h : p.hits n = true) : ∃ e, n = .expression e ∧ p.matching e = true := by
  cases n with
  | expression e => exact ⟨e, rfl, h⟩
  | _ => contradiction

theorem process_of_hits (h : p.hits n = true) (s : Session Nat) :
    (p.rewriter.process n).runFrom s = (.ok (p.put n), ⟨compared n s.journal, s.data + 1⟩) := by
  obtain ⟨e, rfl, matching⟩ := exists_of_hits h
  rw [Rewriter.process_eq]
  simp [rewriter, runFrom_bind, matching, put, compared, Except.map]

theorem process_of_missed (h : p.hits n = false) (s : Session Nat) :
    (p.rewriter.process n).runFrom s =
      (p.rewriter.descend n).runFrom { s with journal := compared n s.journal } := by
  rw [Rewriter.process_eq]
  cases n with
  | expression e =>
    have missed : ¬ p.matching e = true := Bool.eq_false_iff.mp h
    simp only [rewriter, missed]
    rfl
  | _ => rfl

end SqlTree.Replacement
