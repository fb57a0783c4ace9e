import SqlTree.Rewrite

/-!
# Replacing expressions

A replacement finds expressions by a test and puts others in their place. What it has put in is not
looked at again, so only the outermost expressions that pass the test are replaced.
-/

namespace SqlTree

/-- A test on expressions, and what takes the place of those that pass it. -/
structure Replacement where
  matching : Expr → Bool
  result : Expr → Expr

namespace Replacement

/-- The rewriter that replaces; its data is the number of expressions replaced so far. -/
def rewriter (p : Replacement) : Rewriter Nat where
  around n descend :=
    match n with
    | .expression e => do
      Rewrite.note (.compared e)
      if p.matching e then
        Rewrite.setData ((← Rewrite.data) + 1)
        return .expression (p.result e)
      else descend
    | _ => descend

/-- Replaces inside a single expression, which has to remain one. -/
def transform (p : Replacement) (e : Expr) : Rewrite Nat Node := do
  let result ← p.rewriter.rewrite (.expression e)
  ofExcept (Slot.expression.check result)

/-- Replaces inside a tree without adding to the count. -/
def uncounted (x : Rewrite Nat Node) : Rewrite Nat Node := do
  let count ← Rewrite.data
  let outcome ← Rewrite.outcome x
  Rewrite.setData count
  ofExcept outcome

end Replacement

end SqlTree
