import SqlTree.Node

/-!
# The children of a node

The nodes in the slots of a node, in the order in which they are written, and the same node with
other nodes in its slots. The condition of a join, properties and the parts of windows and table
elements are no children. A child is smaller than its parent.
-/

namespace SqlTree

/-- A node in a slot. -/
structure Child where
  slot : Slot
  node : Node
deriving Inhabited

namespace Child

def ofStatement (s : Statement) : Child := ⟨.statement, .statement s⟩
def ofQuery (q : Query) : Child := ⟨.query, .statement (.query q)⟩
def ofExpr (e : Expr) : Child := ⟨.expression, .expression e⟩
def ofList (xs : InList) : Child := ⟨.list, .expression (.list xs)⟩
def ofBranch (b : Branch) : Child := ⟨.branch, .expression (.branch b)⟩
def ofRelation (r : Relation) : Child := ⟨.relation, .relation r⟩
def ofSelect (s : Select) : Child := ⟨.select, .select s⟩
def ofSelectItem (i : SelectItem) : Child := ⟨.selectItem, .selectItem i⟩
def ofGroupBy (g : GroupBy) : Child := ⟨.groupBy, .groupBy g⟩
def ofGroupingElement (g : GroupingElement) : Child := ⟨.groupingElement, .groupingElement g⟩
def ofWindow (w : Window) : Child := ⟨.window, .window w⟩
def ofKsqlWindow (w : KsqlWindow) : Child := ⟨.ksqlWindow, .ksqlWindow w⟩
def ofWithin (w : Within) : Child := ⟨.within, .within w⟩
def ofTableElement (e : TableElement) : Child := ⟨.tableElement, .tableElement e⟩

end Child

def Query.children (q : Query) : List Child :=
  [.ofSelect q.select, .ofRelation q.source] ++ q.window?.toList.map .ofWindow ++
    q.filter?.toList.map .ofExpr ++ q.groupBy?.toList.map .ofGroupBy ++
    q.having?.toList.map .ofExpr

def Statement.children : Statement → List Child
  | several _ ss => ss.map .ofStatement
  | create _ _ _ es _ _ => es.map .ofTableElement
  | createStreamAs _ _ q _ _ e => .ofQuery q :: e.toList.map .ofExpr
  | createTableAs _ _ q _ _ => [.ofQuery q]
  | insertInto _ _ q e => .ofQuery q :: e.toList.map .ofExpr
  | dropTable .. | createConnector .. => []
  | query q => q.children

def Expr.children : Expr → List Child
  | literal .. | column .. => []
  | unary _ _ e => [.ofExpr e]
  | binary _ _ a b => [.ofExpr a, .ofExpr b]
  | between _ v a b => [.ofExpr v, .ofExpr a, .ofExpr b]
  | isIn _ v xs => [.ofExpr v, .ofList xs]
  | call _ _ xs => xs.map .ofExpr
  | case _ o bs e => o.toList.map .ofExpr ++ bs.map .ofBranch ++ e.toList.map .ofExpr
  | list xs => xs.values.map .ofExpr
  | branch b => [.ofExpr b.condition, .ofExpr b.result]

def Relation.children : Relation → List Child
  | table .. => []
  | aliased _ r _ => [.ofRelation r]
  | join _ _ a b _ w => [.ofRelation a, .ofRelation b] ++ w.toList.map .ofWithin

def SelectItem.children : SelectItem → List Child
  | single _ e _ => [.ofExpr e]
  | all .. => []

def GroupingElement.children : GroupingElement → List Child
  | simple _ cs | rollup _ cs | cube _ cs => cs.map .ofExpr
  | sets _ ss => ss.flatten.map .ofExpr

/-- The nodes in the slots of `n`, in order. -/
def Node.children : Node → List Child
  | statement s => s.children
  | expression e => e.children
  | relation r => r.children
  | select s => s.items.map .ofSelectItem
  | selectItem i => i.children
  | groupBy g => g.elements.map .ofGroupingElement
  | groupingElement g => g.children
  | window w => [.ofKsqlWindow w.window]
  | ksqlWindow _ | within _ | tableElement _ => []

/-! ## Other children -/

/-- Filling slots one after the other from a list of nodes. -/
abbrev Refill := StateM (List Node)

namespace Refill

/-- Fills a slot with the next node; the slot keeps what it has if that node does not fit. -/
def next {α : Type} (fit : Node → Option α) (old : α) : Refill α :=
  modifyGet fun
    | [] => (old, [])
    | n :: ns => ((fit n).getD old, ns)

def expr : Expr → Refill Expr := next Node.expression?

def exprs (es : List Expr) : Refill (List Expr) := es.mapM expr

def optional {α : Type} (fit : Node → Option α) (old? : Option α) : Refill (Option α) :=
  match old? with
  | none => pure none
  | some old => some <$> next fit old

end Refill

open Refill

def Query.refill (q : Query) : Refill Query := do
  let select ← next Node.select? q.select
  let source ← next Node.relation? q.source
  let window? ← optional Node.window? q.window?
  let filter? ← optional Node.expression? q.filter?
  let groupBy? ← optional Node.groupBy? q.groupBy?
  let having? ← optional Node.expression? q.having?
  return { q with select, source, window?, filter?, groupBy?, having? }

def Statement.refill : Statement → Refill Statement
  | several l ss => return several l (← ss.mapM (next Node.statement?))
  | create l c n es i p => return create l c n (← es.mapM (next Node.tableElement?)) i p
  | createStreamAs l n q i p e =>
    return createStreamAs l n (← next Node.query? q) i p (← optional Node.expression? e)
  | createTableAs l n q i p => return createTableAs l n (← next Node.query? q) i p
  | insertInto l t q e =>
    return insertInto l t (← next Node.query? q) (← optional Node.expression? e)
  | dropTable l n i d => return dropTable l n i d
  | createConnector l n p t => return createConnector l n p t
  | query q => return query (← q.refill)

def Expr.refill : Expr → Refill Expr
  | literal l v => return literal l v
  | column l n => return column l n
  | unary l op e => return unary l op (← expr e)
  | binary l op a b => return binary l op (← expr a) (← expr b)
  | between l v a b => return between l (← expr v) (← expr a) (← expr b)
  | isIn l v xs => return isIn l (← expr v) (← next Node.list? xs)
  | call l f xs => return call l f (← exprs xs)
  | case l o bs e =>
    return case l (← optional Node.expression? o) (← bs.mapM (next Node.branch?))
      (← optional Node.expression? e)
  | list xs => return list { xs with values := ← exprs xs.values }
  | branch b => return branch { b with condition := ← expr b.condition, result := ← expr b.result }

def Relation.refill : Relation → Refill Relation
  | table l n => return table l n
  | aliased l r a => return aliased l (← next Node.relation? r) a
  | join l t a b c w =>
    return join l t (← next Node.relation? a) (← next Node.relation? b) c
      (← optional Node.within? w)

def SelectItem.refill : SelectItem → Refill SelectItem
  | single l e a => return single l (← expr e) a
  | all l q => return all l q

def GroupingElement.refill : GroupingElement → Refill GroupingElement
  | simple l cs => return simple l (← exprs cs)
  | rollup l cs => return rollup l (← exprs cs)
  | cube l cs => return cube l (← exprs cs)
  | sets l ss => return sets l (← ss.mapM exprs)

def Node.refill : Node → Refill Node
  | statement s => statement <$> s.refill
  | expression e => expression <$> e.refill
  | relation r => relation <$> r.refill
  | select s => return select { s with items := ← s.items.mapM (next Node.selectItem?) }
  | selectItem i => selectItem <$> i.refill
  | groupBy g =>
    return groupBy { g with elements := ← g.elements.mapM (next Node.groupingElement?) }
  | groupingElement g => groupingElement <$> g.refill
  | window w => return window { w with window := ← next Node.ksqlWindow? w.window }
  | ksqlWindow w => return ksqlWindow w
  | within w => return within w
  | tableElement e => return tableElement e

/-- The node with `nodes` in its slots, in order. A slot without a fitting node keeps its child. -/
def Node.withChildren (n : Node) (nodes : List Node) : Node := (n.refill.run nodes).1

/-! ## Children are smaller -/

theorem Location.sizeOf_pos (l : Location) : 0 < sizeOf l := by
  cases l
  simp only [Location.mk.sizeOf_spec]
  omega

theorem Expr.sizeOf_child_lt {e : Expr} {c : Child} (h : c ∈ e.children) :
    sizeOf c.node < 1 + sizeOf e := by
  cases e <;> simp only [Expr.children, List.mem_cons, List.mem_append, List.mem_map,
    Option.mem_toList, List.not_mem_nil, or_false] at h
  case unary l _ _ =>
    have := l.sizeOf_pos
    subst h
    simp only [Child.ofExpr, Node.expression.sizeOf_spec, Expr.unary.sizeOf_spec]
    omega
  case binary => rcases h with rfl | rfl <;> simp [Child.ofExpr] <;> omega
  case between => rcases h with rfl | rfl | rfl <;> simp [Child.ofExpr] <;> omega
  case isIn l _ _ =>
    have := l.sizeOf_pos
    rcases h with rfl | rfl
    · simp [Child.ofExpr]; omega
    · simp [Child.ofList]; omega
  case call =>
    obtain ⟨e, he, rfl⟩ := h
    have := List.sizeOf_lt_of_mem he
    simp [Child.ofExpr]; omega
  case case =>
    rcases h with (⟨e, rfl, rfl⟩ | ⟨b, hb, rfl⟩) | ⟨e, rfl, rfl⟩
    · simp [Child.ofExpr]; omega
    · have := List.sizeOf_lt_of_mem hb
      simp [Child.ofBranch]; omega
    · simp [Child.ofExpr]; omega
  case list xs =>
    obtain ⟨e, he, rfl⟩ := h
    have := List.sizeOf_lt_of_mem he
    cases xs
    simp [Child.ofExpr] at *; omega
  case branch b =>
    cases b
    rcases h with rfl | rfl <;> simp [Child.ofExpr] <;> omega

theorem Query.sizeOf_child_lt {q : Query} {c : Child} (h : c ∈ q.children) :
    sizeOf c.node < 1 + sizeOf q := by
  obtain ⟨l, s, r, w, f, g, hv, n⟩ := q
  simp only [Query.children, List.mem_cons, List.mem_append, List.mem_map,
    Option.mem_toList, List.not_mem_nil, or_false] at h
  rcases h with
    ((((rfl | rfl) | ⟨w, rfl, rfl⟩) | ⟨w, rfl, rfl⟩) | ⟨w, rfl, rfl⟩) | ⟨w, rfl, rfl⟩ <;>
    simp [Child.ofSelect, Child.ofRelation, Child.ofWindow, Child.ofExpr, Child.ofGroupBy] <;> omega

theorem Statement.sizeOf_child_lt {s : Statement} {c : Child} (h : c ∈ s.children) :
    sizeOf c.node < 1 + sizeOf s := by
  cases s <;> simp only [Statement.children, List.mem_cons, List.mem_map,
    Option.mem_toList, List.not_mem_nil, or_false] at h
  case several =>
    obtain ⟨e, he, rfl⟩ := h
    have := List.sizeOf_lt_of_mem he
    simp [Child.ofStatement]; omega
  case create =>
    obtain ⟨e, he, rfl⟩ := h
    have := List.sizeOf_lt_of_mem he
    simp [Child.ofTableElement]; omega
  case createStreamAs l _ _ _ _ _ | insertInto l _ _ _ =>
    have := l.sizeOf_pos
    rcases h with rfl | ⟨e, rfl, rfl⟩ <;> simp [Child.ofQuery, Child.ofExpr] <;> omega
  case createTableAs l _ _ _ _ => have := l.sizeOf_pos; subst h; simp [Child.ofQuery]; omega
  case query q => have := Query.sizeOf_child_lt h; simp; omega

theorem Relation.sizeOf_child_lt {r : Relation} {c : Child} (h : c ∈ r.children) :
    sizeOf c.node < 1 + sizeOf r := by
  cases r <;> simp only [Relation.children, List.mem_cons, List.mem_append, List.mem_map,
    Option.mem_toList, List.not_mem_nil, or_false] at h
  case aliased => subst h; simp [Child.ofRelation]; omega
  case join =>
    rcases h with (rfl | rfl) | ⟨w, rfl, rfl⟩ <;> simp [Child.ofRelation, Child.ofWithin] <;> omega

theorem GroupingElement.sizeOf_child_lt {g : GroupingElement} {c : Child} (h : c ∈ g.children) :
    sizeOf c.node < 1 + sizeOf g := by
  cases g <;> simp only [GroupingElement.children, List.mem_map, List.mem_flatten] at h
  case sets =>
    obtain ⟨e, ⟨s, hs, he⟩, rfl⟩ := h
    have := List.sizeOf_lt_of_mem he
    have := List.sizeOf_lt_of_mem hs
    simp [Child.ofExpr]; omega
  all_goals
    obtain ⟨e, he, rfl⟩ := h
    have := List.sizeOf_lt_of_mem he
    simp [Child.ofExpr]; omega

/-- A child is smaller than its parent. -/
theorem Node.sizeOf_child_lt {n : Node} {c : Child} (h : c ∈ n.children) :
    sizeOf c.node < sizeOf n := by
  cases n <;> simp only [Node.children, List.mem_map, List.mem_singleton, List.not_mem_nil] at h
  case statement => simpa using Statement.sizeOf_child_lt h
  case expression => simpa using Expr.sizeOf_child_lt h
  case relation => simpa using Relation.sizeOf_child_lt h
  case groupingElement => simpa using GroupingElement.sizeOf_child_lt h
  case select s =>
    obtain ⟨i, hi, rfl⟩ := h
    have := List.sizeOf_lt_of_mem hi
    cases s; simp [Child.ofSelectItem] at *; omega
  case groupBy g =>
    obtain ⟨i, hi, rfl⟩ := h
    have := List.sizeOf_lt_of_mem hi
    cases g; simp [Child.ofGroupingElement] at *; omega
  case window w =>
    subst h; cases w
    simp only [Child.ofKsqlWindow, Node.ksqlWindow.sizeOf_spec, Node.window.sizeOf_spec,
      Window.mk.sizeOf_spec]
    omega
  case selectItem i =>
    cases i <;> simp only [SelectItem.children, List.mem_singleton, List.not_mem_nil] at h
    subst h; simp [Child.ofExpr]; omega

end SqlTree
