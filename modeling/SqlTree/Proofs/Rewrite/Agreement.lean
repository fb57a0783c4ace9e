import SqlTree.Proofs.Rewrite.Outcome

/-!
# Rewrites side by side

Two computations agree when from sessions that correspond they both fail with the same error, or
both give values that correspond, and when they leave sessions that correspond again. What is built
in the same way from computations that agree agrees. So two rewriters agree on the default treatment
of two nodes if they agree on the children, one by one.
-/

namespace SqlTree

namespace Rewrite

variable {σ τ α β α' β' : Type} {I : Session σ → Session τ → Prop} {V : α → β → Prop}
  {W : α' → β' → Prop}

/-- From sessions that correspond by `I` the computations fail in the same way or give values that
correspond by `V`, and they leave sessions that correspond by `I`. -/
def Agree (I : Session σ → Session τ → Prop) (V : α → β → Prop) (x : Rewrite σ α)
    (y : Rewrite τ β) : Prop :=
  ∀ s t, I s t → Except.Agree V (x.runFrom s).1 (y.runFrom t).1 ∧ I (x.runFrom s).2 (y.runFrom t).2

namespace Agree

theorem pure {a : α} {b : β} (h : V a b) : Agree I V (Pure.pure a) (Pure.pure b) :=
  fun _ _ corresponding => ⟨h, corresponding⟩

theorem ofExcept {r : Except RewriteError α} {r' : Except RewriteError β}
    (h : Except.Agree V r r') :
    Agree I V (MonadExcept.ofExcept r) (MonadExcept.ofExcept r') := by
  intro s t corresponding
  rw [runFrom_ofExcept, runFrom_ofExcept]
  exact ⟨h, corresponding⟩

theorem bind {x : Rewrite σ α} {y : Rewrite τ β} {f : α → Rewrite σ α'} {g : β → Rewrite τ β'}
    (first : Agree I V x y) (rest : ∀ a b, V a b → Agree I W (f a) (g b)) :
    Agree I W (x >>= f) (y >>= g) := by
  intro s t corresponding
  obtain ⟨outcomes, left⟩ := first s t corresponding
  rw [runFrom_bind, runFrom_bind]
  rcases hx : x.runFrom s with ⟨e | a, s'⟩ <;> rcases hy : y.runFrom t with ⟨e' | b, t'⟩ <;>
    rw [hx, hy] at outcomes left
  case error.error => exact ⟨outcomes, left⟩
  case ok.ok => exact rest a b outcomes s' t' left
  all_goals exact absurd outcomes id

theorem mapM {f : α → Rewrite σ α'} {g : β → Rewrite τ β'} {as : List α} {bs : List β}
    (h : List.Forall₂ (fun a b => Agree I W (f a) (g b)) as bs) :
    Agree I (List.Forall₂ W) (as.mapM f) (bs.mapM g) := by
  induction h with
  | nil => exact pure .nil
  | cons first _ ih =>
    rw [List.mapM_cons, List.mapM_cons]
    exact first.bind fun a b hab => ih.bind fun as bs habs => pure (.cons hab habs)

/-- What is known of the values of each computation alone is known of them side by side. -/
theorem alone {x : Rewrite σ α} {y : Rewrite τ β} {P : α → Prop} {Q : β → Prop}
    (h : Agree I V x y) (hx : ∀ s a s', x.runFrom s = (.ok a, s') → P a)
    (hy : ∀ t b t', y.runFrom t = (.ok b, t') → Q b) :
    Agree I (fun a b => V a b ∧ P a ∧ Q b) x y := by
  intro s t corresponding
  obtain ⟨outcomes, left⟩ := h s t corresponding
  refine ⟨?_, left⟩
  rcases ha : x.runFrom s with ⟨e | a, s'⟩ <;> rcases hb : y.runFrom t with ⟨e' | b, t'⟩ <;>
    rw [ha, hb] at outcomes
  case ok.ok => exact ⟨outcomes, hx s a s' ha, hy t b t' hb⟩
  all_goals exact outcomes

end Agree

end Rewrite

namespace Rewriter

open Rewrite

variable {σ τ : Type} {I : Session σ → Session τ → Prop} {V : Node → Node → Prop}
  {r : Rewriter σ} {r' : Rewriter τ}

theorem fit_of_visits {cs : List Child} {ms : List Node} {s s' : Session σ}
    (h : (cs.mapM r.visit).runFrom s = (.ok ms, s')) : Fit cs ms :=
  (mapM_eq_ok (I := fun _ => True) (fun _ _ _ _ _ _ _ => trivial) trivial h).imp
    fun _ _ ⟨_, _, _, visited⟩ => (visit_eq_ok.mp visited).2

/-- Rewriters that agree on the children of two nodes, one by one and in slots of one sort, agree on
the default treatment of the nodes. -/
theorem agree_descend {n n' : Node}
    (checks : ∀ (slot : Slot) m m', V m m' → Except.Agree V (slot.check m) (slot.check m'))
    (rebuilds : ∀ ms ms', Fit n.children ms → Fit n'.children ms' → List.Forall₂ V ms ms' →
      Except.Agree V (n.withChildren ms).recounted (n'.withChildren ms').recounted)
    (children : List.Forall₂ (fun c c' => c.slot = c'.slot ∧
      Agree I V (r.process c.node) (r'.process c'.node)) n.children n'.children) :
    Agree I V (r.descend n) (r'.descend n') := by
  have visits : Agree I (List.Forall₂ V) (n.children.mapM r.visit) (n'.children.mapM r'.visit) := by
    refine .mapM (children.imp ?_)
    rintro ⟨slot, c⟩ ⟨_, c'⟩ ⟨rfl, processed⟩
    exact processed.bind fun m m' h => .ofExcept (checks slot m m' h)
  refine (visits.alone (P := Fit n.children) (Q := Fit n'.children) ?_ ?_).bind ?_
  · exact fun _ _ _ visited => fit_of_visits visited
  · exact fun _ _ _ visited => fit_of_visits visited
  · rintro ms ms' ⟨alike, fit, fit'⟩
    exact .ofExcept (rebuilds ms ms' fit fit' alike)

end Rewriter

end SqlTree
