import SqlTree.Proofs.Rewrite.Outcome

/-!
# Nodes without rules

A node of a kind without rules is rebuilt around its children, whatever the rules for other kinds
do to these. All else of it stays as it was, and each child is what its treatment gives.
-/

namespace SqlTree.Rules

open Rewrite

variable {γ : Type} {t : Rules γ} {context : γ} {limit : Nat} {n m : Node}

theorem replacement?_of_no_rules (h : t.hasRulesFor n.kind = false) :
    t.replacement? context n = none := by
  obtain ⟨no_enter, -⟩ := Bool.or_eq_false_iff.mp h
  rw [replacement?, Option.not_isSome_iff_eq_none.mp (Bool.eq_false_iff.mp no_enter)]
  rfl

theorem left_of_no_rules {kind : Kind} (h : t.hasRulesFor kind = false) (rebuilt : Node) :
    t.left context kind rebuilt = .ok rebuilt := by
  obtain ⟨-, no_exit⟩ := Bool.or_eq_false_iff.mp h
  rw [left, Option.not_isSome_iff_eq_none.mp (Bool.eq_false_iff.mp no_exit)]

/-- If the treatment of a node of a kind without rules succeeds, the node is rebuilt around the
outcomes of treating its children one level deeper: it has the same kind and location, its children
stand in the same slots, and each child is what treating the old child there gives, however long the
journal is by then. -/
theorem rebuilt_of_process (unruled : t.hasRulesFor n.kind = false) {s : Session Nat}
    (h : (((t.rewriter limit context).process n).runFrom s).1 = .ok m) :
    ∃ ms, n.Rebuilt ms m ∧ m.kind = n.kind ∧ m.location = n.location ∧
      m.children.map Child.slot = n.children.map Child.slot ∧ m.children.map Child.node = ms ∧
      List.Forall₂ (fun c b => ∀ journal,
        (((t.rewriter limit context).process c.node).runFrom ⟨journal, s.data + 1⟩).1 = .ok b)
        n.children ms := by
  rcases process_eq_ok h with replaced | ⟨rebuilt, -, descended, left⟩
  · rw [replacement?_of_no_rules unruled] at replaced
    contradiction
  rw [left_of_no_rules unruled] at left
  obtain rfl := Except.ok.inj left
  -- every child is treated at the depth of the node and one more
  have keeps : ∀ c ∈ n.children, ∀ s₁ b s₂, s₁.data = s.data + 1 →
      ((t.rewriter limit context).process c.node).runFrom s₁ = (.ok b, s₂) →
      s₂.data = s.data + 1 := by
    intro c _ s₁ b s₂ hs hb
    have kept := keepsData_process t limit context c.node s₁
    rw [hb] at kept
    exact kept.trans hs
  obtain ⟨ms, around, -, treated⟩ := Rewriter.descend_eq_ok keeps rfl descended
  obtain ⟨nodes, slots⟩ := around.children
  refine ⟨ms, around, around.kind, around.location, slots, nodes, treated.imp ?_⟩
  rintro c b ⟨⟨journal, depth⟩, s₂, rfl, hb⟩ journal'
  rw [process_ignoresJournal t limit context c.node journal' journal, hb]

/-- Every column becomes the number one, and `GROUPING SETS` keep their lengths and their place. -/
theorem rebuilt_of_process_sets :
    let one : Expr := .ofLiteral (.integer 1)
    let a : Expr := .ofColumn ⟨["a"]⟩
    let t : Rules Unit := empty.onEnter .qualifiedNameReference fun _ _ => some (.expression one)
    let n : Node := .groupingElement (.sets (.of 3 1) [[a, a], [], [a]])
    let m : Node := .groupingElement (.sets (.of 3 1) [[one, one], [], [one]])
    t.hasRulesFor n.kind = false ∧
    (((t.rewriter 1 ()).process n).runFrom ⟨#[], 0⟩).1 = .ok m ∧
    ∃ ms, n.Rebuilt ms m ∧ m.kind = n.kind ∧ m.location = n.location ∧
      m.children.map Child.slot = n.children.map Child.slot ∧ m.children.map Child.node = ms ∧
      List.Forall₂ (fun c b => ∀ journal,
        (((t.rewriter 1 ()).process c.node).runFrom ⟨journal, 1⟩).1 = .ok b) n.children ms := by
  intro one a t n m
  have unruled : t.hasRulesFor n.kind = false := by decide
  have replaced (s : Session Nat) : ((t.rewriter 1 ()).process (.expression a)).runFrom s = _ :=
    process_of_replaced (m := .expression one) rfl s
  have visited (s : Session Nat) := Rewriter.visit_eq_ok (c := .ofExpr a).mpr ⟨replaced s, rfl⟩
  have outcome : (((t.rewriter 1 ()).process n).runFrom ⟨#[], 0⟩).1 = .ok m := by
    rw [outcome_of_descend rfl Nat.zero_lt_one]
    show (([Child.ofExpr a, .ofExpr a, .ofExpr a].mapM (t.rewriter 1 ()).visit >>= fun nodes =>
      (ofExcept (n.withChildren nodes).recounted : Rewrite Nat Node)).runFrom _).1 >>= _ = _
    simp only [List.mapM_cons, List.mapM_nil, runFrom_bind, visited, runFrom_pure, runFrom_ofExcept]
    rfl
  exact ⟨unruled, outcome, rebuilt_of_process unruled outcome⟩

end SqlTree.Rules
