import Mathlib.Data.List.Basic
import SqlTree.Node

/-!
# Revised nodes

A revision changes the locations, the literals and the properties in a node, at every depth, and
leaves everything else as it is: the form, the names, the types, and the order and number of parts.
-/

namespace SqlTree

/-- What becomes of the locations, the literals and the properties of a node. -/
structure Revision where
  location : Location → Location
  literal : Literal → Literal
  properties : Properties → Properties

/-- The revision `s`, and `r` after it. -/
def Revision.after (r s : Revision) : Revision where
  location := r.location ∘ s.location
  literal := r.literal ∘ s.literal
  properties := r.properties ∘ s.properties

/-- The revision that changes nothing. -/
def Revision.keep : Revision := ⟨id, id, id⟩

variable (r s : Revision)

mutual

def Expr.revise : Expr → Expr
  | .literal l v => .literal (r.location l) (r.literal v)
  | .column l n => .column (r.location l) n
  | .unary l op e => .unary (r.location l) op e.revise
  | .binary l op a b => .binary (r.location l) op a.revise b.revise
  | .between l v a b => .between (r.location l) v.revise a.revise b.revise
  | .isIn l v xs => .isIn (r.location l) v.revise xs.revise
  | .call l f xs => .call (r.location l) f (Expr.reviseList xs)
  | .case l o bs e =>
    .case (r.location l) (Expr.reviseOption o) (Branch.reviseList bs) (Expr.reviseOption e)
  | .list xs => .list xs.revise
  | .branch b => .branch b.revise
termination_by structural e => e

def InList.revise : InList → InList
  | ⟨l, xs⟩ => ⟨r.location l, Expr.reviseList xs⟩
termination_by structural xs => xs

def Branch.revise : Branch → Branch
  | ⟨l, c, e⟩ => ⟨r.location l, c.revise, e.revise⟩
termination_by structural b => b

def Expr.reviseOption : Option Expr → Option Expr
  | none => none
  | some e => some e.revise
termination_by structural e => e

def Expr.reviseList : List Expr → List Expr
  | [] => []
  | e :: es => e.revise :: Expr.reviseList es
termination_by structural es => es

def Branch.reviseList : List Branch → List Branch
  | [] => []
  | b :: bs => b.revise :: Branch.reviseList bs
termination_by structural bs => bs

end

def KsqlWindow.revise (w : KsqlWindow) : KsqlWindow := ⟨r.location w.location, w.kind⟩

def Window.revise (w : Window) : Window := ⟨r.location w.location, w.name?, w.window.revise r⟩

def Within.revise (w : Within) : Within := ⟨r.location w.location, w.before, w.after⟩

def JoinCriteria.revise : JoinCriteria → JoinCriteria
  | .on condition => .on (condition.revise r)

def Relation.revise : Relation → Relation
  | .table l n => .table (r.location l) n
  | .aliased l a newName => .aliased (r.location l) a.revise newName
  | .join l t a b c w? =>
    .join (r.location l) t a.revise b.revise (c.revise r) (w?.map (Within.revise r))

def SelectItem.revise : SelectItem → SelectItem
  | .single l e newName? => .single (r.location l) (e.revise r) newName?
  | .all l qualifier? => .all (r.location l) qualifier?

def Select.revise (x : Select) : Select :=
  ⟨r.location x.location, x.items.map (SelectItem.revise r)⟩

def GroupingElement.revise : GroupingElement → GroupingElement
  | .simple l cs => .simple (r.location l) (cs.map (Expr.revise r))
  | .rollup l cs => .rollup (r.location l) (cs.map (Expr.revise r))
  | .cube l cs => .cube (r.location l) (cs.map (Expr.revise r))
  | .sets l ss => .sets (r.location l) (ss.map (List.map (Expr.revise r)))

def GroupBy.revise (g : GroupBy) : GroupBy :=
  ⟨r.location g.location, g.elements.map (GroupingElement.revise r)⟩

def Query.revise (q : Query) : Query where
  location := r.location q.location
  select := q.select.revise r
  source := q.source.revise r
  window? := q.window?.map (Window.revise r)
  filter? := q.filter?.map (Expr.revise r)
  groupBy? := q.groupBy?.map (GroupBy.revise r)
  having? := q.having?.map (Expr.revise r)
  limit? := q.limit?

def TableElement.revise (e : TableElement) : TableElement :=
  ⟨r.location e.location, e.role, e.name, e.type⟩

mutual

def Statement.revise : Statement → Statement
  | .several l ss => .several (r.location l) (Statement.reviseList ss)
  | .create l c n es i p =>
    .create (r.location l) c n (es.map (TableElement.revise r)) i (r.properties p)
  | .createStreamAs l n q i p e? =>
    .createStreamAs (r.location l) n (q.revise r) i (r.properties p) (e?.map (Expr.revise r))
  | .createTableAs l n q i p => .createTableAs (r.location l) n (q.revise r) i (r.properties p)
  | .insertInto l t q e? => .insertInto (r.location l) t (q.revise r) (e?.map (Expr.revise r))
  | .dropTable l n i d => .dropTable (r.location l) n i d
  | .createConnector l n p t => .createConnector (r.location l) n (r.properties p) t
  | .query q => .query (q.revise r)
termination_by structural x => x

def Statement.reviseList : List Statement → List Statement
  | [] => []
  | x :: xs => x.revise :: Statement.reviseList xs
termination_by structural xs => xs

end

/-- The node with its locations, literals and properties revised. -/
def Node.revise : Node → Node
  | statement x => statement (x.revise r)
  | expression e => expression (e.revise r)
  | relation x => relation (x.revise r)
  | select x => select (x.revise r)
  | selectItem i => selectItem (i.revise r)
  | groupBy g => groupBy (g.revise r)
  | groupingElement g => groupingElement (g.revise r)
  | window w => window (w.revise r)
  | ksqlWindow w => ksqlWindow (w.revise r)
  | within w => within (w.revise r)
  | tableElement e => tableElement (e.revise r)

/-! ## Two revisions are one -/

mutual

theorem Expr.revise_revise : ∀ e : Expr, (e.revise s).revise r = e.revise (r.after s)
  | .literal .. | .column .. => rfl
  | .unary _ _ e => by
    simp only [Expr.revise, Expr.revise_revise e]
    rfl
  | .binary _ _ a b => by
    simp only [Expr.revise, Expr.revise_revise a, Expr.revise_revise b]
    rfl
  | .between _ v a b => by
    simp only [Expr.revise, Expr.revise_revise v, Expr.revise_revise a, Expr.revise_revise b]
    rfl
  | .isIn _ v xs => by
    simp only [Expr.revise, Expr.revise_revise v, InList.revise_revise xs]
    rfl
  | .call _ _ xs => by
    simp only [Expr.revise, Expr.reviseList_reviseList xs]
    rfl
  | .case _ o bs e => by
    simp only [Expr.revise, Expr.reviseOption_reviseOption o, Branch.reviseList_reviseList bs,
      Expr.reviseOption_reviseOption e]
    rfl
  | .list xs => by simp only [Expr.revise, InList.revise_revise xs]
  | .branch b => by simp only [Expr.revise, Branch.revise_revise b]

theorem InList.revise_revise : ∀ xs : InList, (xs.revise s).revise r = xs.revise (r.after s)
  | ⟨_, xs⟩ => by
    simp only [InList.revise, Expr.reviseList_reviseList xs]
    rfl

theorem Branch.revise_revise : ∀ b : Branch, (b.revise s).revise r = b.revise (r.after s)
  | ⟨_, c, e⟩ => by
    simp only [Branch.revise, Expr.revise_revise c, Expr.revise_revise e]
    rfl

theorem Expr.reviseOption_reviseOption : ∀ e? : Option Expr,
    Expr.reviseOption r (Expr.reviseOption s e?) = Expr.reviseOption (r.after s) e?
  | none => rfl
  | some e => by simp only [Expr.reviseOption, Expr.revise_revise e]

theorem Expr.reviseList_reviseList : ∀ es : List Expr,
    Expr.reviseList r (Expr.reviseList s es) = Expr.reviseList (r.after s) es
  | [] => rfl
  | e :: es => by
    simp only [Expr.reviseList, Expr.revise_revise e, Expr.reviseList_reviseList es]

theorem Branch.reviseList_reviseList : ∀ bs : List Branch,
    Branch.reviseList r (Branch.reviseList s bs) = Branch.reviseList (r.after s) bs
  | [] => rfl
  | b :: bs => by
    simp only [Branch.reviseList, Branch.revise_revise b, Branch.reviseList_reviseList bs]

end

theorem Expr.revise_comp_revise : Expr.revise r ∘ Expr.revise s = Expr.revise (r.after s) :=
  funext (Expr.revise_revise r s)

theorem KsqlWindow.revise_revise (w : KsqlWindow) :
    (w.revise s).revise r = w.revise (r.after s) := rfl

theorem Window.revise_revise (w : Window) : (w.revise s).revise r = w.revise (r.after s) := rfl

theorem Within.revise_revise (w : Within) : (w.revise s).revise r = w.revise (r.after s) := rfl

theorem JoinCriteria.revise_revise (c : JoinCriteria) :
    (c.revise s).revise r = c.revise (r.after s) := by
  cases c with
  | on condition => exact congrArg JoinCriteria.on (condition.revise_revise r s)

theorem Relation.revise_revise (x : Relation) :
    (x.revise s).revise r = x.revise (r.after s) := by
  induction x with
  | table => rfl
  | aliased l a newName ih =>
    simp only [revise, ih]
    rfl
  | join l t a b c w? iha ihb =>
    have bounds : Within.revise r ∘ Within.revise s = Within.revise (r.after s) := rfl
    simp only [revise, iha, ihb, JoinCriteria.revise_revise, Option.map_map, bounds]
    rfl

theorem SelectItem.revise_revise (i : SelectItem) :
    (i.revise s).revise r = i.revise (r.after s) := by
  cases i with
  | single l e newName? =>
    simp only [revise, Expr.revise_revise]
    rfl
  | all => rfl

theorem Select.revise_revise (x : Select) : (x.revise s).revise r = x.revise (r.after s) := by
  have items : SelectItem.revise r ∘ SelectItem.revise s = SelectItem.revise (r.after s) :=
    funext (SelectItem.revise_revise r s)
  simp only [revise, List.map_map, items]
  rfl

theorem GroupingElement.revise_revise (g : GroupingElement) :
    (g.revise s).revise r = g.revise (r.after s) := by
  have columns := Expr.revise_comp_revise r s
  cases g with
  | simple l cs | rollup l cs | cube l cs =>
    simp only [revise, List.map_map, columns]
    rfl
  | sets l ss =>
    have sets : List.map (Expr.revise r) ∘ List.map (Expr.revise s) =
        List.map (Expr.revise (r.after s)) := by
      rw [List.map_comp_map, columns]
    simp only [revise, List.map_map, sets]
    rfl

theorem GroupBy.revise_revise (g : GroupBy) : (g.revise s).revise r = g.revise (r.after s) := by
  have elements : GroupingElement.revise r ∘ GroupingElement.revise s =
      GroupingElement.revise (r.after s) := funext (GroupingElement.revise_revise r s)
  simp only [revise, List.map_map, elements]
  rfl

theorem Query.revise_revise (q : Query) : (q.revise s).revise r = q.revise (r.after s) := by
  have windows : Window.revise r ∘ Window.revise s = Window.revise (r.after s) := rfl
  have groupings : GroupBy.revise r ∘ GroupBy.revise s = GroupBy.revise (r.after s) :=
    funext (GroupBy.revise_revise r s)
  simp only [revise, Select.revise_revise, Relation.revise_revise, Option.map_map,
    Expr.revise_comp_revise, windows, groupings]
  rfl

theorem TableElement.revise_revise (e : TableElement) :
    (e.revise s).revise r = e.revise (r.after s) := rfl

mutual

theorem Statement.revise_revise : ∀ x : Statement, (x.revise s).revise r = x.revise (r.after s)
  | .several _ xs => by
    simp only [Statement.revise, Statement.reviseList_reviseList xs]
    rfl
  | .create .. => by
    have elements : TableElement.revise r ∘ TableElement.revise s =
        TableElement.revise (r.after s) := rfl
    simp only [Statement.revise, List.map_map, elements]
    rfl
  | .createStreamAs .. | .insertInto .. => by
    simp only [Statement.revise, Query.revise_revise, Option.map_map,
      Expr.revise_comp_revise]
    rfl
  | .createTableAs .. => by
    simp only [Statement.revise, Query.revise_revise]
    rfl
  | .dropTable .. | .createConnector .. => rfl
  | .query _ => by simp only [Statement.revise, Query.revise_revise]

theorem Statement.reviseList_reviseList : ∀ xs : List Statement,
    Statement.reviseList r (Statement.reviseList s xs) = Statement.reviseList (r.after s) xs
  | [] => rfl
  | x :: xs => by
    simp only [Statement.reviseList, Statement.revise_revise x,
      Statement.reviseList_reviseList xs]

end

/-- Two revisions, one after the other, are one. -/
theorem Node.revise_revise (n : Node) : (n.revise s).revise r = n.revise (r.after s) := by
  cases n with
  | statement x => exact congrArg statement (x.revise_revise r s)
  | expression e => exact congrArg expression (e.revise_revise r s)
  | relation x => exact congrArg relation (x.revise_revise r s)
  | select x => exact congrArg select (x.revise_revise r s)
  | selectItem i => exact congrArg selectItem (i.revise_revise r s)
  | groupBy g => exact congrArg groupBy (g.revise_revise r s)
  | groupingElement g => exact congrArg groupingElement (g.revise_revise r s)
  | window w => exact congrArg window (w.revise_revise r s)
  | ksqlWindow w => exact congrArg ksqlWindow (w.revise_revise r s)
  | within w => exact congrArg within (w.revise_revise r s)
  | tableElement e => exact congrArg tableElement (e.revise_revise r s)

/-! ## Nothing else is revised -/

mutual

theorem Expr.revise_keep : ∀ e : Expr, e.revise .keep = e
  | .literal .. | .column .. => rfl
  | .unary _ _ e => by
    simp only [Expr.revise, Expr.revise_keep e]
    rfl
  | .binary _ _ a b => by
    simp only [Expr.revise, Expr.revise_keep a, Expr.revise_keep b]
    rfl
  | .between _ v a b => by
    simp only [Expr.revise, Expr.revise_keep v, Expr.revise_keep a, Expr.revise_keep b]
    rfl
  | .isIn _ v xs => by
    simp only [Expr.revise, Expr.revise_keep v, InList.revise_keep xs]
    rfl
  | .call _ _ xs => by
    simp only [Expr.revise, Expr.reviseList_keep xs]
    rfl
  | .case _ o bs e => by
    simp only [Expr.revise, Expr.reviseOption_keep o, Branch.reviseList_keep bs,
      Expr.reviseOption_keep e]
    rfl
  | .list xs => by simp only [Expr.revise, InList.revise_keep xs]
  | .branch b => by simp only [Expr.revise, Branch.revise_keep b]

theorem InList.revise_keep : ∀ xs : InList, xs.revise .keep = xs
  | ⟨_, xs⟩ => by
    simp only [InList.revise, Expr.reviseList_keep xs]
    rfl

theorem Branch.revise_keep : ∀ b : Branch, b.revise .keep = b
  | ⟨_, c, e⟩ => by
    simp only [Branch.revise, Expr.revise_keep c, Expr.revise_keep e]
    rfl

theorem Expr.reviseOption_keep : ∀ e? : Option Expr, Expr.reviseOption .keep e? = e?
  | none => rfl
  | some e => by simp only [Expr.reviseOption, Expr.revise_keep e]

theorem Expr.reviseList_keep : ∀ es : List Expr, Expr.reviseList .keep es = es
  | [] => rfl
  | e :: es => by simp only [Expr.reviseList, Expr.revise_keep e, Expr.reviseList_keep es]

theorem Branch.reviseList_keep : ∀ bs : List Branch, Branch.reviseList .keep bs = bs
  | [] => rfl
  | b :: bs => by simp only [Branch.reviseList, Branch.revise_keep b, Branch.reviseList_keep bs]

end

theorem Expr.revise_keep_eq_id : Expr.revise .keep = id := funext Expr.revise_keep

theorem Relation.revise_keep (x : Relation) : x.revise .keep = x := by
  induction x with
  | table => rfl
  | aliased l a newName ih =>
    simp only [revise, ih]
    rfl
  | join l t a b c w? iha ihb =>
    have bounds : Within.revise .keep = id := rfl
    have criteria : c.revise .keep = c := by
      cases c with
      | on condition => exact congrArg JoinCriteria.on condition.revise_keep
    simp only [revise, iha, ihb, criteria, bounds, Option.map_id]
    rfl

theorem SelectItem.revise_keep (i : SelectItem) : i.revise .keep = i := by
  cases i with
  | single l e newName? =>
    simp only [revise, Expr.revise_keep]
    rfl
  | all => rfl

theorem Select.revise_keep (x : Select) : x.revise .keep = x := by
  simp only [revise, List.map_id'' SelectItem.revise_keep]
  rfl

theorem GroupingElement.revise_keep (g : GroupingElement) : g.revise .keep = g := by
  cases g <;>
  · simp only [revise, Expr.revise_keep_eq_id, List.map_id_fun, List.map_id]
    rfl

theorem GroupBy.revise_keep (g : GroupBy) : g.revise .keep = g := by
  simp only [revise, List.map_id'' GroupingElement.revise_keep]
  rfl

theorem Query.revise_keep (q : Query) : q.revise .keep = q := by
  have windows : Window.revise .keep = id := rfl
  have groupings : GroupBy.revise .keep = id := funext GroupBy.revise_keep
  simp only [revise, Select.revise_keep, Relation.revise_keep, windows, groupings,
    Expr.revise_keep_eq_id, Option.map_id]
  rfl

mutual

theorem Statement.revise_keep : ∀ x : Statement, x.revise .keep = x
  | .several _ xs => by
    simp only [Statement.revise, Statement.reviseList_keep xs]
    rfl
  | .create .. => by
    have elements : TableElement.revise .keep = id := rfl
    simp only [Statement.revise, elements, List.map_id]
    rfl
  | .createStreamAs .. | .insertInto .. => by
    simp only [Statement.revise, Query.revise_keep, Expr.revise_keep_eq_id, Option.map_id]
    rfl
  | .createTableAs .. => by
    simp only [Statement.revise, Query.revise_keep]
    rfl
  | .dropTable .. | .createConnector .. => rfl
  | .query _ => by simp only [Statement.revise, Query.revise_keep]

theorem Statement.reviseList_keep : ∀ xs : List Statement, Statement.reviseList .keep xs = xs
  | [] => rfl
  | x :: xs => by
    simp only [Statement.reviseList, Statement.revise_keep x, Statement.reviseList_keep xs]

end

/-- What no location, literal or property has a part in is never revised. -/
theorem Node.revise_keep (n : Node) : n.revise .keep = n := by
  cases n with
  | statement x => exact congrArg statement x.revise_keep
  | expression e => exact congrArg expression e.revise_keep
  | relation x => exact congrArg relation x.revise_keep
  | select x => exact congrArg select x.revise_keep
  | selectItem i => exact congrArg selectItem i.revise_keep
  | groupBy g => exact congrArg groupBy g.revise_keep
  | groupingElement g => exact congrArg groupingElement g.revise_keep
  | window | ksqlWindow | within | tableElement => rfl

end SqlTree
