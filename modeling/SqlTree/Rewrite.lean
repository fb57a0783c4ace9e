import SqlTree.Node.Children
import SqlTree.Rewrite.Event

/-!
# Rewriting

A rewriter says, for every node, what to do around the default treatment. The default treatment
rewrites the children one after the other, checks that each result fits its slot, and puts the
results into the node; the first fault ends the rewrite. A `CUBE` has its columns counted anew. All
else of the node is kept.
-/

namespace SqlTree

/-- What a rewriter carries along: the journal and data of its own. -/
structure Session (σ : Type) where
  journal : Array Event
  data : σ

/-- Computations of a rewriter; what they wrote into the session stays there when they fail. -/
abbrev Rewrite (σ : Type) := ExceptT RewriteError (StateM (Session σ))

namespace Rewrite

variable {σ : Type}

/-- Enters an event into the journal. -/
def note (e : Event) : Rewrite σ Unit :=
  modify fun s => { s with journal := s.journal.push e }

/-- The rewriter's own data. -/
def data : Rewrite σ σ := return (← get).data

def setData (d : σ) : Rewrite σ Unit := modify fun s => { s with data := d }

/-- The outcome of a computation, as a value. -/
def outcome {α : Type} (x : Rewrite σ α) : Rewrite σ (Except RewriteError α) :=
  ExceptT.lift x.run

end Rewrite

/-- The node, if it may stand in the slot. -/
def Slot.check (s : Slot) (n : Node) : Except RewriteError Node :=
  if s.admits n then .ok n else .error (.unexpectedNode s.name n.kind)

/-- The node, unless it is a `CUBE` with too many distinct columns. -/
def Node.recounted (n : Node) : Except RewriteError Node :=
  match n with
  | .groupingElement (.cube l columns) =>
    match GroupingElement.cubeColumns columns with
    | .ok columns => .ok (.groupingElement (.cube l columns))
    | .error v => .error (.invalidNode v)
  | n => .ok n

/-- What to do with a node, given the computation that treats it by default. -/
structure Rewriter (σ : Type) where
  around : Node → Rewrite σ Node → Rewrite σ Node

namespace Rewriter

variable {σ : Type}

/-- Rewrites a node. -/
def process (r : Rewriter σ) (n : Node) : Rewrite σ Node :=
  r.around n do
    let nodes ← n.children.attach.mapM fun ⟨c, _⟩ => do
      ofExcept (c.slot.check (← r.process c.node))
    ofExcept (n.withChildren nodes).recounted
termination_by n
decreasing_by exact Node.sizeOf_child_lt (by assumption)

/-- Rewrites a whole tree. -/
def rewrite (r : Rewriter σ) (root : Node) : Rewrite σ Node := do
  Rewrite.note (.started root.kind)
  let result ← r.process root
  Rewrite.note (.finished result.kind)
  return result

/-- Rewrites a statement into a statement. -/
def rewriteStatement (r : Rewriter σ) (root : Statement) : Rewrite σ Node := do
  let result ← r.rewrite (.statement root)
  ofExcept (Slot.statement.check result)

end Rewriter

end SqlTree
