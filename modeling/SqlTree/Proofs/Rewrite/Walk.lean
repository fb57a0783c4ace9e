import SqlTree.Proofs.Rewrite.Journal
import SqlTree.Rewrite.Overrides

/-!
# The walk of a rewrite

The walk of a node enters the node, walks what stands in its slots, in the order in which it is
written, and leaves the node. It is read off the form of the node. The default treatment makes
exactly this walk, so every node in a slot is entered once and left once, and nothing else is.
-/

namespace SqlTree

/-! ## Walks -/

/-- A node of the kind is entered, what is inside is walked, and the node is left. -/
def Kind.around (k : Kind) (inside : List Event) : List Event :=
  .entered k :: (inside ++ [.left k])

mutual

def Expr.walk : Expr → List Event
  | .literal .. => Kind.literal.around []
  | .column .. => Kind.qualifiedNameReference.around []
  | .unary _ op e => op.kind.around e.walk
  | .binary _ op a b => op.kind.around (a.walk ++ b.walk)
  | .between _ v a b => Kind.between.around (v.walk ++ a.walk ++ b.walk)
  | .isIn _ v xs => Kind.inPredicate.around (v.walk ++ xs.walk)
  | .call _ _ xs => Kind.functionCall.around (Expr.walkList xs)
  | .case _ o bs e =>
    (if o.isSome then Kind.simpleCase else Kind.searchedCase).around
      (Expr.walkOption o ++ Branch.walkList bs ++ Expr.walkOption e)
  | .list xs => xs.walk
  | .branch b => b.walk
termination_by structural e => e

def InList.walk : InList → List Event
  | ⟨_, xs⟩ => Kind.inList.around (Expr.walkList xs)
termination_by structural xs => xs

def Branch.walk : Branch → List Event
  | ⟨_, c, r⟩ => Kind.whenClause.around (c.walk ++ r.walk)
termination_by structural b => b

def Expr.walkOption : Option Expr → List Event
  | none => []
  | some e => e.walk
termination_by structural e => e

def Expr.walkList : List Expr → List Event
  | [] => []
  | e :: es => e.walk ++ Expr.walkList es
termination_by structural es => es

def Branch.walkList : List Branch → List Event
  | [] => []
  | b :: bs => b.walk ++ Branch.walkList bs
termination_by structural bs => bs

end

def KsqlWindow.walk (_ : KsqlWindow) : List Event := Kind.ksqlWindowExpression.around []

def Window.walk (w : Window) : List Event := Kind.windowExpression.around w.window.walk

def Within.walk (_ : Within) : List Event := Kind.withinExpression.around []

/-- The condition of a join is not walked. -/
def Relation.walk : Relation → List Event
  | table .. => Kind.table.around []
  | aliased _ r _ => Kind.aliasedRelation.around r.walk
  | join _ _ a b _ w? => Kind.join.around (a.walk ++ b.walk ++ w?.toList.flatMap Within.walk)

def SelectItem.walk : SelectItem → List Event
  | single _ e _ => Kind.singleColumn.around e.walk
  | all .. => Kind.allColumns.around []

def Select.walk (s : Select) : List Event := Kind.select.around (s.items.flatMap SelectItem.walk)

def GroupingElement.walk : GroupingElement → List Event
  | simple _ cs => Kind.simpleGroupBy.around (cs.flatMap Expr.walk)
  | rollup _ cs => Kind.rollup.around (cs.flatMap Expr.walk)
  | cube _ cs => Kind.cube.around (cs.flatMap Expr.walk)
  | sets _ ss => Kind.groupingSets.around (ss.flatMap fun s => s.flatMap Expr.walk)

def GroupBy.walk (g : GroupBy) : List Event :=
  Kind.groupBy.around (g.elements.flatMap GroupingElement.walk)

def Query.walk (q : Query) : List Event :=
  Kind.query.around (q.select.walk ++ q.source.walk ++ q.window?.toList.flatMap Window.walk ++
    q.filter?.toList.flatMap Expr.walk ++ q.groupBy?.toList.flatMap GroupBy.walk ++
    q.having?.toList.flatMap Expr.walk)

def TableElement.walk (_ : TableElement) : List Event := Kind.tableElement.around []

mutual

/-- Properties, and so the configuration of a connector, are not walked. -/
def Statement.walk : Statement → List Event
  | .several _ ss => Kind.statements.around (Statement.walkList ss)
  | .create _ .stream _ es _ _ => Kind.createStream.around (es.flatMap TableElement.walk)
  | .create _ .table _ es _ _ => Kind.createTable.around (es.flatMap TableElement.walk)
  | .createStreamAs _ _ q _ _ e? =>
    Kind.createStreamAsSelect.around (q.walk ++ e?.toList.flatMap Expr.walk)
  | .createTableAs _ _ q _ _ => Kind.createTableAsSelect.around q.walk
  | .insertInto _ _ q e? => Kind.insertInto.around (q.walk ++ e?.toList.flatMap Expr.walk)
  | .dropTable .. => Kind.dropTable.around []
  | .createConnector .. => Kind.createConnector.around []
  | .query q => q.walk
termination_by structural s => s

def Statement.walkList : List Statement → List Event
  | [] => []
  | s :: ss => s.walk ++ Statement.walkList ss
termination_by structural ss => ss

end

/-- The node and what stands in its slots, on the way in and on the way out. -/
def Node.walk : Node → List Event
  | statement s => s.walk
  | expression e => e.walk
  | relation r => r.walk
  | select s => s.walk
  | selectItem i => i.walk
  | groupBy g => g.walk
  | groupingElement g => g.walk
  | window w => w.walk
  | ksqlWindow w => w.walk
  | within w => w.walk
  | tableElement e => e.walk

/-! ## Walks by way of the slots -/

theorem Expr.walkOption_eq (e? : Option Expr) : walkOption e? = e?.toList.flatMap walk := by
  cases e? <;> simp [walkOption]

theorem Expr.walkList_eq (es : List Expr) : walkList es = es.flatMap walk := by
  induction es with
  | nil => rfl
  | cons e es ih => rw [walkList, List.flatMap_cons, ih]

theorem Branch.walkList_eq (bs : List Branch) : walkList bs = bs.flatMap walk := by
  induction bs with
  | nil => rfl
  | cons b bs ih => rw [walkList, List.flatMap_cons, ih]

theorem Statement.walkList_eq (ss : List Statement) : walkList ss = ss.flatMap walk := by
  induction ss with
  | nil => rfl
  | cons s ss ih => rw [walkList, List.flatMap_cons, ih]

/-- The walks of the children, one after the other. -/
def Child.walks (cs : List Child) : List Event := cs.flatMap fun c => c.node.walk

theorem Child.walks_map {α : Type} (slot : α → Child) (as : List α) :
    walks (as.map slot) = as.flatMap fun a => (slot a).node.walk := by
  rw [walks, List.flatMap_map]

theorem Expr.walk_eq (e : Expr) : e.walk = e.kind.around (Child.walks e.children) := by
  cases e with
  | call => simp [walk, kind, children, Child.walks, walkList_eq, Child.ofExpr, Node.walk,
      List.flatMap_map]
  | case l o? bs e? =>
    have inside : walkOption o? ++ Branch.walkList bs ++ walkOption e? =
        Child.walks (case l o? bs e?).children := by
      simp [children, Child.walks, walkOption_eq, Branch.walkList_eq, Child.ofExpr,
        Child.ofBranch, Node.walk, walk, List.flatMap_map]
    rw [walk, inside]
    cases o? <;> rfl
  | list xs =>
    cases xs
    simp [walk, InList.walk, kind, children, Child.walks, walkList_eq, Child.ofExpr, Node.walk,
      List.flatMap_map]
  | branch b =>
    cases b
    simp [walk, Branch.walk, kind, children, Child.walks, Child.ofExpr, Node.walk]
  | _ => simp [walk, kind, children, Child.walks, Child.ofExpr, Child.ofList, Node.walk]

theorem Query.walk_eq (q : Query) : q.walk = Kind.query.around (Child.walks q.children) := by
  simp [walk, children, Child.walks, Child.ofSelect, Child.ofRelation, Child.ofWindow,
    Child.ofExpr, Child.ofGroupBy, Node.walk, List.flatMap_map]

theorem Statement.walk_eq (s : Statement) : s.walk = s.kind.around (Child.walks s.children) := by
  cases s with
  | several => simp [walk, kind, children, Child.walks, walkList_eq, Child.ofStatement, Node.walk,
      List.flatMap_map]
  | create _ c =>
    cases c <;> simp [walk, kind, children, Child.walks, Child.ofTableElement, Node.walk,
      List.flatMap_map]
  | query q => exact q.walk_eq
  | _ => simp [walk, kind, children, Child.walks, Child.ofQuery, Child.ofExpr, Node.walk,
      List.flatMap_map]

theorem Relation.walk_eq (r : Relation) : r.walk = r.kind.around (Child.walks r.children) := by
  cases r <;> simp [walk, kind, children, Child.walks, Child.ofRelation, Child.ofWithin, Node.walk,
    List.flatMap_map]

theorem GroupingElement.walk_eq (g : GroupingElement) :
    g.walk = g.kind.around (Child.walks g.children) := by
  cases g with
  | sets _ ss =>
    have inside : (ss.flatMap fun s => s.flatMap Expr.walk) = ss.flatten.flatMap Expr.walk := by
      induction ss with
      | nil => rfl
      | cons s ss ih => rw [List.flatMap_cons, ih, List.flatten_cons, List.flatMap_append]
    rw [walk, inside, children, Child.walks_map]
    rfl
  | _ => simp [walk, kind, children, Child.walks_map, Child.ofExpr, Node.walk]

/-- The walk of a node goes around the walks of the nodes in its slots. -/
theorem Node.walk_eq (n : Node) : n.walk = n.kind.around (Child.walks n.children) := by
  cases n with
  | statement s => exact s.walk_eq
  | expression e => exact e.walk_eq
  | relation r => exact r.walk_eq
  | groupingElement g => exact g.walk_eq
  | selectItem i =>
    cases i <;> simp [walk, SelectItem.walk, kind, SelectItem.kind, children,
      SelectItem.children, Child.walks, Child.ofExpr]
  | _ => simp [walk, Select.walk, GroupBy.walk, Window.walk, KsqlWindow.walk, Within.walk,
      TableElement.walk, kind, children, Child.walks, Child.ofSelectItem, Child.ofGroupingElement,
      Child.ofKsqlWindow, List.flatMap_map]

/-! ## Walks are properly nested -/

/-- What is entered is left before anything that was entered earlier is. -/
inductive Event.Nested : List Event → Prop
  | nil : Nested []
  | around (k : Kind) {inside rest : List Event} :
    Nested inside → Nested rest → Nested (k.around inside ++ rest)

theorem Event.Nested.append {events more : List Event} (h : Nested events) (hm : Nested more) :
    Nested (events ++ more) := by
  induction h with
  | nil => exact hm
  | around k inside _ _ ih =>
    rw [List.append_assoc]
    exact .around k inside ih

theorem Child.nested_walks {cs : List Child} (h : ∀ c ∈ cs, Event.Nested c.node.walk) :
    Event.Nested (walks cs) := by
  induction cs with
  | nil => exact .nil
  | cons c cs ih =>
    obtain ⟨first, rest⟩ := List.forall_mem_cons.mp h
    exact first.append (ih rest)

theorem Node.nested_walk (n : Node) : Event.Nested n.walk := by
  induction n using Node.childInduction with
  | step n ih =>
    rw [walk_eq, ← List.append_nil (n.kind.around _)]
    exact .around n.kind (Child.nested_walks ih) .nil

/-! ## The walk is what is traced -/

namespace Rewriter

open Rewrite

variable {σ : Type} {r : Rewriter σ} {n : Node}

theorem reports_visit {c : Child} {events : List Event} (hc : c ∈ n.children)
    (h : (r.process c.node).Reports c.node events) : (r.visit c).Reports c.node events := by
  intro s
  exact visit_of_process (Node.admits_child hc) (h s)

/-- If treating any child gives it back, then the default treatment of a valid node gives the node
back, and the reports follow each other in the order of the children. -/
theorem reports_descend (hn : n.Valid) {reported : Child → List Event}
    (h : ∀ c ∈ n.children, (r.process c.node).Reports c.node (reported c)) :
    (r.descend n).Reports n (n.children.flatMap reported) := by
  have visited := Reports.mapM fun c hc => reports_visit hc (h c hc)
  have built : (n.withChildren (n.children.map Child.node)).recounted = .ok n := by
    rw [Node.withChildren_children, hn.recounted_eq]
  rw [descend, ← List.append_nil (n.children.flatMap reported)]
  exact visited.bind (.ofExcept built)

theorem reports_process_traced (hn : n.Valid) :
    ((traced : Rewriter σ).process n).Reports n n.walk := by
  induction n using Node.childInduction with
  | step n ih =>
    have inside : ((traced : Rewriter σ).descend n).Reports n (Child.walks n.children) :=
      reports_descend hn fun c hc => ih c hc (hn.child hc)
    -- what the children report stands between the two reports on the node itself
    rw [process_eq, Node.walk_eq]
    exact (Reports.note (.entered n.kind)).bind <| inside.bind <|
      (Reports.note (.left n.kind)).bind (.pure n)

/-- Rewriting a valid node gives the node back and leaves the data alone. What is recorded on the
way is the walk of the node, which goes around the walks of its children and is properly nested. -/
theorem rewrite_traced_eq_walk (hn : n.Valid) (s : Session σ) :
    (traced.process n).runFrom s = (.ok n, s.after n.walk) ∧
    (traced.rewrite n).runFrom s =
      (.ok n, s.after (.started n.kind :: (n.walk ++ [.finished n.kind]))) ∧
    n.walk = n.kind.around (Child.walks n.children) ∧
    Event.Nested n.walk := by
  refine ⟨reports_process_traced hn s, ?_, n.walk_eq, n.nested_walk⟩
  rw [runFrom_rewrite, ← Session.after_singleton, reports_process_traced hn]
  simp [Session.after]

/-- In `INSERT INTO s SELECT CASE a WHEN 1 THEN b END FROM t JOIN u WITHIN 1 HOURS ON a = b WHERE
a IN (1) PARTITION BY b` the condition of the join is passed over. -/
theorem rewrite_traced_insert :
    let a : Expr := .ofColumn ⟨["a"]⟩
    let b : Expr := .ofColumn ⟨["b"]⟩
    let one : Expr := .ofLiteral (.integer 1)
    let selected : Expr := .case .unknown (some a) [⟨.unknown, one, b⟩] none
    let condition : Expr := .binary .unknown (.comparison .equal) a b
    let source : Relation := .join .unknown .inner (.table .unknown ⟨["t"]⟩)
      (.table .unknown ⟨["u"]⟩) (.on condition) (some (.symmetric ⟨1, .hours⟩))
    let query : Query := { Query.simple ⟨.unknown, [.single .unknown selected none]⟩ source with
      filter? := some (.isIn .unknown a ⟨.unknown, [one]⟩) }
    let n : Node := .statement (.insertInto .unknown ⟨["s"]⟩ query (some b))
    n.Valid ∧
      (traced.process n).runFrom (⟨#[], ()⟩ : Session Unit) = (.ok n, ⟨n.walk.toArray, ()⟩) ∧
      n.walk = .entered .insertInto :: .entered .query ::
          (Kind.select.around (Kind.singleColumn.around (Kind.simpleCase.around
            (Kind.qualifiedNameReference.around [] ++
              Kind.whenClause.around (Kind.literal.around [] ++
                Kind.qualifiedNameReference.around [])))) ++
          Kind.join.around (Kind.table.around [] ++ Kind.table.around [] ++
            Kind.withinExpression.around []) ++
          Kind.inPredicate.around (Kind.qualifiedNameReference.around [] ++
            Kind.inList.around (Kind.literal.around []))) ++
        .left .query :: Kind.qualifiedNameReference.around [] ++ [.left .insertInto] := by
  intro a b one selected condition source query n
  have names : a.Valid ∧ b.Valid := by simp [a, b, Expr.ofColumn, Expr.Valid, Name.Valid]
  have number : one.Valid := by simp [one, Expr.ofLiteral, Expr.Valid, Literal.Valid]
  have hq : query.Valid := by
    constructor <;> simp [query, Query.simple, selected, source, condition, names, number,
      Select.Valid, SelectItem.Valid, Relation.Valid, JoinCriteria.Valid, Name.Valid, Expr.Valid,
      InList.Valid, Branch.Valid]
  have hn : n.Valid := by simp [n, Node.Valid, Statement.Valid, Name.Valid, hq, names]
  have run := (rewrite_traced_eq_walk hn (⟨#[], ()⟩ : Session Unit)).1
  refine ⟨hn, ?_, by cbv⟩
  rw [run, Session.after]
  simp

end Rewriter

end SqlTree
