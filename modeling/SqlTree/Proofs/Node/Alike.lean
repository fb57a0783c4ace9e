import SqlTree.Proofs.Grouping.Canonical
import SqlTree.Proofs.Node.RebuiltValid
import SqlTree.Proofs.Node.RevisedParts

/-!
# Nodes that are alike

Nodes are alike when they are the same and no settings inside them give a key twice. Alike nodes
have one kind and fit the same slots, and in their own slots stand alike nodes. Rebuilt around alike
nodes they stay alike, and as `CUBE`s they pass the counting of columns or fail it together.
-/

namespace SqlTree

/-! ## Settings that give no key twice -/

@[simp]
theorem Statement.distinctKeysList_iff {ss : List Statement} :
    Statement.DistinctKeysList ss ↔ ∀ s ∈ ss, s.DistinctKeys := by
  induction ss with
  | nil => simp [DistinctKeysList]
  | cons s ss ih => rw [DistinctKeysList, ih, List.forall_mem_cons]

namespace Node

variable {n m : Node} {ms : List Node}

/-- A node that is no list of statements has no slots for them; a query may stand in it. -/
theorem statement_not_mem_slots (h : ∀ l ss, n ≠ .statement (.several l ss)) :
    Slot.statement ∉ n.children.map Child.slot := by
  have query (q : Query) : Slot.statement ∉ q.children.map Child.slot := by
    simp [Query.children, Child.ofSelect, Child.ofRelation, Child.ofWindow, Child.ofExpr,
      Child.ofGroupBy]
  cases n with
  | statement s =>
    cases s with
    | several l ss => exact absurd rfl (h l ss)
    | query q => exact query q
    | _ => simp [children, Statement.children, Child.ofTableElement, Child.ofQuery, Child.ofExpr]
  | expression e =>
    cases e <;> simp [children, Expr.children, Child.ofExpr, Child.ofList, Child.ofBranch]
  | relation x => cases x <;> simp [children, Relation.children, Child.ofRelation, Child.ofWithin]
  | selectItem i => cases i <;> simp [children, SelectItem.children, Child.ofExpr]
  | groupingElement g => cases g <;> simp [children, GroupingElement.children, Child.ofExpr]
  | _ => simp [children, Child.ofSelectItem, Child.ofGroupingElement, Child.ofKsqlWindow]

theorem distinctKeys_of_admits {slot : Slot} (h : slot.admits n = true) (hs : slot ≠ .statement) :
    n.DistinctKeys := by
  cases n with
  | statement s =>
    cases s with
    | query | insertInto | dropTable => trivial
    | _ => cases slot <;> contradiction
  | _ => trivial

theorem DistinctKeys.child (h : n.DistinctKeys) {c : Child} (hc : c ∈ n.children) :
    c.node.DistinctKeys := by
  by_cases list : ∃ l ss, n = .statement (.several l ss)
  · obtain ⟨l, ss, rfl⟩ := list
    obtain ⟨s, hs, rfl⟩ := List.mem_map.mp hc
    exact Statement.distinctKeysList_iff.mp h s hs
  · push Not at list
    refine distinctKeys_of_admits (admits_child hc) fun slot => ?_
    exact statement_not_mem_slots list (slot ▸ List.mem_map_of_mem hc)

theorem Rebuilt.distinctKeys (h : n.Rebuilt ms m) (hn : n.DistinctKeys)
    (hm : ∀ m ∈ ms, m.DistinctKeys) : m.DistinctKeys := by
  cases h with
  | statement h =>
    cases h with
    | several =>
      have statements := List.forall_mem_map.mp hm
      exact Statement.distinctKeysList_iff.mpr statements
    | insertInto | query => trivial
    | _ => exact hn
  | _ => trivial

/-! ## Canonical forms -/

theorem recounted_canonical (n : Node) :
    n.canonical.recounted = n.recounted.map canonical := by
  cases n with
  | groupingElement g =>
    cases g with
    | cube l columns =>
      simp only [canonical, revise, GroupingElement.revise, recounted]
      rw [Expr.revise_canonical_eq, GroupingElement.cubeColumns_canonical]
      cases GroupingElement.cubeColumns columns with
      | error v => rfl
      | ok columns =>
        simp only [Except.map, canonical, revise, GroupingElement.revise, Expr.revise_canonical_eq]
    | _ => rfl
  | _ => rfl

/-! ## Alike nodes -/

/-- The nodes are the same, and neither has settings that give a key twice. -/
structure Alike (a b : Node) : Prop where
  left : a.DistinctKeys
  right : b.DistinctKeys
  same : (a == b) = true

namespace Alike

variable {a b : Node}

theorem of_canonical_eq (ha : a.DistinctKeys) (hb : b.DistinctKeys)
    (h : a.canonical = b.canonical) : a.Alike b :=
  ⟨ha, hb, (same_iff ha hb).mpr h⟩

theorem canonical_eq (h : a.Alike b) : a.canonical = b.canonical :=
  (same_iff h.left h.right).mp h.same

theorem kind (h : a.Alike b) : a.kind = b.kind := by
  rw [← a.kind_revise .canonical, ← b.kind_revise .canonical]
  exact congrArg Node.kind h.canonical_eq

theorem admits (h : a.Alike b) (slot : Slot) : slot.admits a = slot.admits b := by
  rw [← slot.admits_revise .canonical a, ← slot.admits_revise .canonical b]
  exact congrArg slot.admits h.canonical_eq

/-- Checked against a slot, both fit or both fail with the same error. -/
theorem check (h : a.Alike b) (slot : Slot) :
    Except.Agree Alike (slot.check a) (slot.check b) := by
  rw [Slot.check, Slot.check, h.admits slot]
  split
  · exact h
  · exact congrArg (RewriteError.unexpectedNode slot.name) h.kind

/-- In the slots, which are the same, stand alike nodes. -/
theorem children (h : a.Alike b) :
    List.Forall₂ (fun c c' => c.slot = c'.slot ∧ c.node.Alike c'.node) a.children b.children := by
  have revised : a.children.map (Child.revise .canonical) =
      b.children.map (Child.revise .canonical) := by
    rw [← children_revise, ← children_revise]
    exact congrArg Node.children h.canonical_eq
  have pairs := forall₂_and_iff.mpr
    ⟨fun _ => h.left.child, fun _ => h.right.child, forall₂_iff_map_eq.mpr revised⟩
  refine pairs.imp ?_
  rintro c c' ⟨hc, hc', same⟩
  obtain ⟨slot, node⟩ := Child.mk.inj same
  exact ⟨slot, of_canonical_eq hc hc' node⟩

/-- Around alike nodes the nodes stay alike. -/
theorem withChildren (h : a.Alike b) {ms ms' : List Node} (fit : Fit a.children ms)
    (fit' : Fit b.children ms') (alike : List.Forall₂ Alike ms ms') :
    (a.withChildren ms).Alike (b.withChildren ms') := by
  obtain ⟨m, around⟩ := exists_rebuilt fit
  obtain ⟨m', around'⟩ := exists_rebuilt fit'
  obtain ⟨keys, keys', same⟩ := forall₂_and_iff.mp
    (alike.imp fun _ _ hm => ⟨hm.left, hm.right, hm.canonical_eq⟩)
  rw [around.withChildren_eq, around'.withChildren_eq]
  refine of_canonical_eq (around.distinctKeys h.left keys) (around'.distinctKeys h.right keys') ?_
  calc m.canonical
    _ = a.canonical.withChildren (ms.map canonical) := around.revise.withChildren_eq.symm
    _ = b.canonical.withChildren (ms'.map canonical) := by
      rw [h.canonical_eq, forall₂_iff_map_eq.mp same]
    _ = m'.canonical := around'.revise.withChildren_eq

/-- As `CUBE`s both have few distinct columns or too many, and then equally many. -/
theorem recounted (h : a.Alike b) : Except.Agree Alike a.recounted b.recounted := by
  have canonical : a.recounted.map canonical = b.recounted.map canonical := by
    rw [← recounted_canonical, ← recounted_canonical, h.canonical_eq]
  have agreed := Except.Agree.of_map_eq canonical
  rcases ha : a.recounted with e | m <;> rcases hb : b.recounted with e' | m' <;>
    rw [ha, hb] at agreed
  case ok.ok =>
    obtain rfl := eq_of_recounted ha
    obtain rfl := eq_of_recounted hb
    exact h
  all_goals exact agreed

end Alike

end Node

end SqlTree
