import Mathlib.Data.List.Basic
import SqlTree.Proofs.Node.Rebuilt
import SqlTree.Proofs.Node.Validity

/-!
# Running a rewrite

What each step of a computation gives from a session, and the treatment of a node by way of its
children. Statements about all nodes are proved by induction from the children to the node.
-/

namespace SqlTree

namespace Rewrite

variable {σ α β : Type}

/-- The outcome of a computation from a session, and the session it leaves behind. -/
def runFrom (x : Rewrite σ α) (s : Session σ) : Except RewriteError α × Session σ := x.run.run s

theorem runFrom_bind (x : Rewrite σ α) (f : α → Rewrite σ β) (s : Session σ) :
    (x >>= f).runFrom s = match x.runFrom s with
      | (.ok a, s') => (f a).runFrom s'
      | (.error e, s') => (.error e, s') := by
  show (ExceptT.bindCont f (x.run.run s).1) (x.run.run s).2 = _
  rw [runFrom]
  rcases x.run.run s with ⟨_ | _, s'⟩ <;> rfl

theorem runFrom_bind_error {x : Rewrite σ α} (f : α → Rewrite σ β) {s : Session σ}
    {e : RewriteError} (h : (x.runFrom s).1 = .error e) : ((x >>= f).runFrom s).1 = .error e := by
  rw [runFrom_bind]
  rcases hr : x.runFrom s with ⟨r, s'⟩
  rw [hr] at h
  subst h
  rfl

@[simp]
theorem runFrom_pure (a : α) (s : Session σ) : (pure a : Rewrite σ α).runFrom s = (.ok a, s) := rfl

@[simp]
theorem runFrom_map (f : α → β) (x : Rewrite σ α) (s : Session σ) :
    (f <$> x).runFrom s = ((x.runFrom s).1.map f, (x.runFrom s).2) := by
  show (ExceptT.run (f <$> x)).run s = _
  rw [ExceptT.run_map]
  rfl

@[simp]
theorem runFrom_throw (e : RewriteError) (s : Session σ) :
    (throw e : Rewrite σ α).runFrom s = (.error e, s) := rfl

@[simp]
theorem runFrom_ofExcept (r : Except RewriteError α) (s : Session σ) :
    (ofExcept r : Rewrite σ α).runFrom s = (r, s) := by
  cases r <;> rfl

@[simp]
theorem runFrom_note (e : Event) (s : Session σ) :
    (note e).runFrom s = (.ok (), { s with journal := s.journal.push e }) := rfl

@[simp]
theorem runFrom_data (s : Session σ) : (data : Rewrite σ σ).runFrom s = (.ok s.data, s) := rfl

@[simp]
theorem runFrom_setData (d : σ) (s : Session σ) :
    (setData d).runFrom s = (.ok (), { s with data := d }) := rfl

@[simp]
theorem runFrom_outcome (x : Rewrite σ α) (s : Session σ) :
    x.outcome.runFrom s = (.ok (x.runFrom s).1, (x.runFrom s).2) := rfl

end Rewrite

namespace Rewriter

open Rewrite

variable {σ : Type}

/-- Treats what stands in a slot. -/
def visit (r : Rewriter σ) (c : Child) : Rewrite σ Node := do
  ofExcept (c.slot.check (← r.process c.node))

/-- The default treatment of a node. -/
def descend (r : Rewriter σ) (n : Node) : Rewrite σ Node := do
  let nodes ← n.children.mapM r.visit
  ofExcept (n.withChildren nodes).recounted

theorem process_eq (r : Rewriter σ) (n : Node) : r.process n = r.around n (r.descend n) := by
  rw [process, descend]
  congr 2
  conv_rhs => rw [← List.attach_map_subtype_val n.children]
  rw [List.mapM_map]
  rfl

theorem runFrom_rewrite (r : Rewriter σ) (root : Node) (s : Session σ) :
    (r.rewrite root).runFrom s =
      match (r.process root).runFrom { s with journal := s.journal.push (.started root.kind) } with
      | (.ok m, s') => (.ok m, { s' with journal := s'.journal.push (.finished m.kind) })
      | (.error e, s') => (.error e, s') := by
  rw [rewrite, runFrom_bind, runFrom_note]
  simp only [runFrom_bind]
  rcases runFrom _ _ with ⟨_ | _, s'⟩ <;> rfl

theorem visit_of_process {r : Rewriter σ} {c : Child} {m : Node} {s s' : Session σ}
    (fits : c.slot.admits m = true) (h : (r.process c.node).runFrom s = (.ok m, s')) :
    (r.visit c).runFrom s = (.ok m, s') := by
  rw [visit, runFrom_bind, h]
  simp only [runFrom_ofExcept, Slot.check, if_pos fits]

/-- If treating any child gives what `g` makes of it and leaves the session alone, then so does the
default treatment of a node: it gives the form around what `g` makes of the children. -/
theorem descend_of_process {r : Rewriter σ} {g : Node → Node} {n m : Node} {s : Session σ}
    (rebuilt : n.Rebuilt (n.children.map fun c => g c.node) m) (counted : m.recounted = .ok m)
    (h : ∀ c ∈ n.children, (r.process c.node).runFrom s = (.ok (g c.node), s)) :
    (r.descend n).runFrom s = (.ok m, s) := by
  have fits : ∀ c ∈ n.children, c.slot.admits (g c.node) = true :=
    List.forall₂_same.mp (List.forall₂_map_right_iff.mp rebuilt.fit)
  have nodes : ∀ cs : List Child, (∀ c ∈ cs, c ∈ n.children) →
      (cs.mapM r.visit).runFrom s = (.ok (cs.map fun c => g c.node), s) := by
    intro cs
    induction cs with
    | nil => exact fun _ => rfl
    | cons c cs ih =>
      intro hcs
      have hc := hcs c List.mem_cons_self
      rw [List.mapM_cons, runFrom_bind, visit_of_process (fits c hc) (h c hc)]
      simp only [runFrom_bind, ih fun d hd => hcs d (List.mem_cons_of_mem c hd)]
      rfl
  rw [descend, runFrom_bind, nodes n.children fun _ => id]
  simp only [runFrom_ofExcept, rebuilt.withChildren_eq, counted]

/-- If treating any child gives it back and leaves the session alone, then so does the default
treatment of a valid node. -/
theorem descend_eq_self {r : Rewriter σ} {n : Node} {s : Session σ} (hn : n.Valid)
    (h : ∀ c ∈ n.children, (r.process c.node).runFrom s = (.ok c.node, s)) :
    (r.descend n).runFrom s = (.ok n, s) :=
  descend_of_process (g := id) n.rebuilt_self hn.recounted_eq h

end Rewriter

end SqlTree
