import SqlTree.Proofs.Node.Rebuilt
import SqlTree.Proofs.Node.Revised

/-!
# The parts of revised nodes

A revision keeps the kind of a node and the slots in it. What stands in the slots is revised in the
same way, before the node is rebuilt around it or afterwards.
-/

namespace SqlTree

variable (r : Revision)

/-! ## Kinds and slots -/

@[simp]
theorem Expr.reviseOption_eq (e? : Option Expr) :
    Expr.reviseOption r e? = e?.map (Expr.revise r) := by
  cases e? <;> rfl

@[simp]
theorem Expr.reviseList_eq (es : List Expr) : Expr.reviseList r es = es.map (Expr.revise r) := by
  induction es with
  | nil => rfl
  | cons e es ih => rw [reviseList, ih, List.map_cons]

@[simp]
theorem Branch.reviseList_eq (bs : List Branch) :
    Branch.reviseList r bs = bs.map (Branch.revise r) := by
  induction bs with
  | nil => rfl
  | cons b bs ih => rw [reviseList, ih, List.map_cons]

@[simp]
theorem Statement.reviseList_eq (ss : List Statement) :
    Statement.reviseList r ss = ss.map (Statement.revise r) := by
  induction ss with
  | nil => rfl
  | cons s ss ih => rw [reviseList, ih, List.map_cons]

@[simp]
theorem Node.kind_revise (n : Node) : (n.revise r).kind = n.kind := by
  cases n with
  | statement s =>
    cases s with
    | create _ collection => cases collection <;> rfl
    | _ => rfl
  | expression e =>
    cases e with
    | case _ operand? => cases operand? <;> rfl
    | _ => rfl
  | relation x => cases x <;> rfl
  | selectItem i => cases i <;> rfl
  | groupingElement g => cases g <;> rfl
  | _ => rfl

@[simp]
theorem Slot.admits_revise (slot : Slot) (n : Node) : slot.admits (n.revise r) = slot.admits n := by
  cases n with
  | statement s => cases s <;> cases slot <;> rfl
  | expression e => cases e <;> cases slot <;> rfl
  | _ => cases slot <;> rfl

/-! ## Children -/

/-- What stands in a slot, revised. -/
def Child.revise (c : Child) : Child := ⟨c.slot, c.node.revise r⟩

theorem Expr.children_revise (e : Expr) :
    (e.revise r).children = e.children.map (Child.revise r) := by
  cases e with
  | call =>
    simp only [revise, children, reviseList_eq, List.map_map]
    rfl
  | case =>
    simp only [revise, children, reviseOption_eq, Branch.reviseList_eq, Option.toList_map,
      List.map_append, List.map_map]
    rfl
  | list xs =>
    rcases xs with ⟨l, es⟩
    simp only [revise, InList.revise, children, reviseList_eq, List.map_map]
    rfl
  | branch b =>
    cases b
    rfl
  | _ => rfl

theorem Relation.children_revise (x : Relation) :
    (x.revise r).children = x.children.map (Child.revise r) := by
  cases x with
  | join =>
    simp only [revise, children, Option.toList_map, List.map_append, List.map_map]
    rfl
  | _ => rfl

theorem GroupingElement.children_revise (g : GroupingElement) :
    (g.revise r).children = g.children.map (Child.revise r) := by
  cases g <;>
  · simp only [revise, children, ← List.map_flatten, List.map_map]
    rfl

theorem Query.children_revise (q : Query) :
    (q.revise r).children = q.children.map (Child.revise r) := by
  simp only [revise, children, Option.toList_map, List.map_append, List.map_map]
  rfl

theorem Statement.children_revise (s : Statement) :
    (s.revise r).children = s.children.map (Child.revise r) := by
  cases s with
  | several =>
    simp only [revise, children, reviseList_eq, List.map_map]
    rfl
  | create =>
    simp only [revise, children, List.map_map]
    rfl
  | createStreamAs | insertInto =>
    simp only [revise, children, Option.toList_map, List.map_cons, List.map_map]
    rfl
  | query q => exact q.children_revise r
  | _ => rfl

/-- In the slots of a revised node stand the revised children. -/
theorem Node.children_revise (n : Node) :
    (n.revise r).children = n.children.map (Child.revise r) := by
  cases n with
  | statement s => exact s.children_revise r
  | expression e => exact e.children_revise r
  | relation x => exact x.children_revise r
  | groupingElement g => exact g.children_revise r
  | selectItem i => cases i <;> rfl
  | select | groupBy =>
    simp only [revise, Select.revise, GroupBy.revise, children, List.map_map]
    rfl
  | _ => rfl

/-! ## Nodes around revised children -/

theorem Node.map_revise {α : Type} (node : α → Node) {f : α → α}
    (h : Node.revise r ∘ node = node ∘ f) (as : List α) :
    (as.map node).map (Node.revise r) = (as.map f).map node := by
  rw [List.map_map, h, List.map_map]

theorem Node.map_revise_toList {α : Type} (node : α → Node) {f : α → α}
    (h : Node.revise r ∘ node = node ∘ f) (a? : Option α) :
    (a?.toList.map node).map (Node.revise r) = (a?.map f).toList.map node := by
  rw [Node.map_revise r node h, Option.toList_map]

section Rebuilt

variable {r} {ms : List Node}

theorem Expr.Rebuilt.revise {e e' : Expr} (h : e.Rebuilt ms e') :
    (e.revise r).Rebuilt (ms.map (Node.revise r)) (e'.revise r) := by
  cases h with
  | literal => exact .literal
  | column => exact .column
  | unary => exact .unary
  | binary => exact .binary
  | between => exact .between
  | isIn => exact .isIn
  | call arguments =>
    simp only [Expr.revise, reviseList_eq, Node.map_revise r .expression rfl]
    exact .call (by simpa using arguments)
  | case operand branches otherwise =>
    simp only [Expr.revise, reviseOption_eq, Branch.reviseList_eq, List.map_append,
      Node.map_revise_toList r .expression rfl,
      Node.map_revise r (fun b => .expression (.branch b)) rfl]
    exact .case (by simpa using operand) (by simpa using branches) (by simpa using otherwise)
  | list values =>
    simp only [Expr.revise, InList.revise, reviseList_eq, Node.map_revise r .expression rfl]
    exact .list (by simpa using values)
  | branch => exact .branch

theorem Relation.Rebuilt.revise {x x' : Relation} (h : x.Rebuilt ms x') :
    (x.revise r).Rebuilt (ms.map (Node.revise r)) (x'.revise r) := by
  cases h with
  | table => exact .table
  | aliased => exact .aliased
  | join within =>
    simp only [List.map_append, Node.map_revise_toList r .within rfl]
    exact .join (by simpa using within)

theorem SelectItem.Rebuilt.revise {i i' : SelectItem} (h : i.Rebuilt ms i') :
    (i.revise r).Rebuilt (ms.map (Node.revise r)) (i'.revise r) := by
  cases h with
  | single => exact .single
  | all => exact .all

theorem GroupingElement.Rebuilt.revise {g g' : GroupingElement} (h : g.Rebuilt ms g') :
    (g.revise r).Rebuilt (ms.map (Node.revise r)) (g'.revise r) := by
  cases h with
  | simple columns =>
    rw [Node.map_revise r .expression rfl]
    exact .simple (by simpa using columns)
  | rollup columns =>
    rw [Node.map_revise r .expression rfl]
    exact .rollup (by simpa using columns)
  | cube columns =>
    rw [Node.map_revise r .expression rfl]
    exact .cube (by simpa using columns)
  | sets sets =>
    rw [Node.map_revise r .expression rfl, List.map_flatten]
    refine .sets ?_
    rw [List.forall₂_map_left_iff, List.forall₂_map_right_iff]
    simpa using sets

theorem Query.Rebuilt.revise {q q' : Query} (h : q.Rebuilt ms q') :
    (q.revise r).Rebuilt (ms.map (Node.revise r)) (q'.revise r) := by
  cases h with
  | query window filter groupBy having =>
    simp only [List.map_append, Node.map_revise_toList r .window rfl,
      Node.map_revise_toList r .expression rfl, Node.map_revise_toList r .groupBy rfl]
    exact .query (by simpa using window) (by simpa using filter) (by simpa using groupBy)
      (by simpa using having)

theorem Statement.Rebuilt.revise {s s' : Statement} (h : s.Rebuilt ms s') :
    (s.revise r).Rebuilt (ms.map (Node.revise r)) (s'.revise r) := by
  cases h with
  | several statements =>
    simp only [Statement.revise, reviseList_eq, Node.map_revise r .statement rfl]
    exact .several (by simpa using statements)
  | create elements =>
    rw [Node.map_revise r .tableElement rfl]
    exact .create (by simpa using elements)
  | createStreamAs partitionBy =>
    rw [List.map_cons, Node.map_revise_toList r .expression rfl]
    exact .createStreamAs (by simpa using partitionBy)
  | createTableAs => exact .createTableAs
  | insertInto partitionBy =>
    rw [List.map_cons, Node.map_revise_toList r .expression rfl]
    exact .insertInto (by simpa using partitionBy)
  | dropTable => exact .dropTable
  | createConnector => exact .createConnector
  | query h => exact .query h.revise

/-- The revised node is the node rebuilt around what has been revised. -/
theorem Node.Rebuilt.revise {n m : Node} (h : n.Rebuilt ms m) :
    (n.revise r).Rebuilt (ms.map (Node.revise r)) (m.revise r) := by
  cases h with
  | statement h => exact .statement h.revise
  | expression h => exact .expression h.revise
  | relation h => exact .relation h.revise
  | select items =>
    rw [Node.map_revise r .selectItem rfl]
    exact .select (by simpa using items)
  | selectItem h => exact .selectItem h.revise
  | groupBy elements =>
    rw [Node.map_revise r .groupingElement rfl]
    exact .groupBy (by simpa using elements)
  | groupingElement h => exact .groupingElement h.revise
  | window => exact .window
  | ksqlWindow => exact .ksqlWindow
  | within => exact .within
  | tableElement => exact .tableElement

end Rebuilt

end SqlTree
