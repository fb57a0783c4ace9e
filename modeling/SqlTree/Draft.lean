import SqlTree.Draft.Expr
import SqlTree.Node

/-!
# Drafts of nodes

What can be asked of the nodes of every family and of all that is in them, and the nodes that are
built from it. Windows and columns, which hold no other nodes than windows, are their own drafts.
-/

namespace SqlTree

/-! ## Properties, windows and columns -/

/-- The properties that are given by keys with values. -/
def Properties.build (entries : List (String × Literal)) : Except Violation Properties := do
  let checked ← entries.mapM fun (key, value) => return (key, ← value.check)
  return .of checked

/-- The window, made anew. No rule binds windows. -/
def KsqlWindow.build (w : KsqlWindow) : KsqlWindow :=
  { KsqlWindow.mk .unknown w.kind with location := w.location }

def Window.build (w : Window) : Window :=
  { Window.mk .unknown w.name? w.window.build with location := w.location }

def Within.build (w : Within) : Within :=
  { Within.mk .unknown w.before w.after with location := w.location }

def TableElement.build (e : TableElement) : Except Violation TableElement := do
  return { ← TableElement.of e.role e.name (← e.type.build) with location := e.location }

/-! ## Relations -/

/-- The draft of a relation. A join gives the condition that it is on. -/
inductive Relation.Draft where
  | table (location : Location) (name : List String)
  | aliasedRelation (location : Location) (relation : Relation.Draft) (newName : String)
  | join (location : Location) (joinType : JoinType) (left right : Relation.Draft)
    (condition : Expr.Draft) (within? : Option Within)

namespace Relation

def draft : Relation → Relation.Draft
  | table l n => .table l n.parts
  | aliased l r newName => .aliasedRelation l r.draft newName
  | join l type a b (.on condition) within? =>
    .join l type a.draft b.draft condition.draft within?

def Draft.build : Relation.Draft → Except Violation Relation
  | .table l parts => return (Relation.table .unknown (← Name.of parts)).withLocation l
  | .aliasedRelation l r newName => return (← aliasedOf (← r.build) newName).withLocation l
  | .join l type a b condition within? => return (Relation.join .unknown type (← a.build)
      (← b.build) (.on (← condition.build)) (within?.map Within.build)).withLocation l

end Relation

/-! ## Queries -/

/-- The draft of an item of a selection. -/
inductive SelectItem.Draft where
  | singleColumn (location : Location) (expression : Expr.Draft) (newName? : Option String)
  | allColumns (location : Location) (qualifier? : Option (List String))

namespace SelectItem

def draft : SelectItem → SelectItem.Draft
  | single l e newName? => .singleColumn l e.draft newName?
  | all l qualifier? => .allColumns l (qualifier?.map Name.parts)

def Draft.build : SelectItem.Draft → Except Violation SelectItem
  | .singleColumn l e newName? =>
    return (SelectItem.single .unknown (← e.build) newName?).withLocation l
  | .allColumns l qualifier? =>
    return (SelectItem.all .unknown (← qualifier?.mapM Name.of)).withLocation l

end SelectItem

/-- The draft of a selection. -/
structure Select.Draft where
  location : Location
  items : List SelectItem.Draft

namespace Select

def draft (s : Select) : Select.Draft := ⟨s.location, s.items.map SelectItem.draft⟩

def Draft.build (d : Select.Draft) : Except Violation Select :=
  return { Select.mk .unknown (← d.items.mapM SelectItem.Draft.build) with location := d.location }

end Select

/-- The draft of an element of a `GROUP BY`. -/
inductive GroupingElement.Draft where
  | simpleGroupBy (location : Location) (columns : List Expr.Draft)
  | rollup (location : Location) (columns : List Expr.Draft)
  | cube (location : Location) (columns : List Expr.Draft)
  | groupingSets (location : Location) (sets : List (List Expr.Draft))

namespace GroupingElement

def draft : GroupingElement → GroupingElement.Draft
  | simple l columns => .simpleGroupBy l (Expr.draftList columns)
  | rollup l columns => .rollup l (Expr.draftList columns)
  | cube l columns => .cube l (Expr.draftList columns)
  | sets l ss => .groupingSets l (ss.map Expr.draftList)

def Draft.build : GroupingElement.Draft → Except Violation GroupingElement
  | .simpleGroupBy l columns =>
    return (GroupingElement.simple .unknown (← Expr.Draft.buildList columns)).withLocation l
  | .rollup l columns =>
    return (GroupingElement.rollup .unknown (← Expr.Draft.buildList columns)).withLocation l
  | .cube l columns => return (← cubeOf (← Expr.Draft.buildList columns)).withLocation l
  | .groupingSets l ss =>
    return (GroupingElement.sets .unknown (← ss.mapM Expr.Draft.buildList)).withLocation l

end GroupingElement

/-- The draft of a `GROUP BY` clause. -/
structure GroupBy.Draft where
  location : Location
  elements : List GroupingElement.Draft

namespace GroupBy

def draft (g : GroupBy) : GroupBy.Draft := ⟨g.location, g.elements.map GroupingElement.draft⟩

def Draft.build (d : GroupBy.Draft) : Except Violation GroupBy :=
  return { GroupBy.mk .unknown (← d.elements.mapM GroupingElement.Draft.build) with
    location := d.location }

end GroupBy

/-- The draft of a query. -/
structure Query.Draft where
  location : Location
  select : Select.Draft
  source : Relation.Draft
  window? : Option Window
  filter? : Option Expr.Draft
  groupBy? : Option GroupBy.Draft
  having? : Option Expr.Draft
  limit? : Option UInt32

namespace Query

def draft (q : Query) : Query.Draft :=
  ⟨q.location, q.select.draft, q.source.draft, q.window?, q.filter?.map Expr.draft,
    q.groupBy?.map GroupBy.draft, q.having?.map Expr.draft, q.limit?⟩

def Draft.build (d : Query.Draft) : Except Violation Query := do
  let select ← d.select.build
  let source ← d.source.build
  let filter? ← d.filter?.mapM Expr.Draft.build
  let groupBy? ← d.groupBy?.mapM GroupBy.Draft.build
  let having? ← d.having?.mapM Expr.Draft.build
  let query := Query.mk .unknown select source (d.window?.map Window.build) filter? groupBy? having?
    d.limit?
  return { query with location := d.location }

end Query

/-! ## Statements -/

/-- The draft of a statement. -/
inductive Statement.Draft where
  | statements (location : Location) (statements : List Statement.Draft)
  | createStream (location : Location) (name : List String) (elements : List TableElement)
    (notExists : Bool) (properties : List (String × Literal))
  | createTable (location : Location) (name : List String) (elements : List TableElement)
    (notExists : Bool) (properties : List (String × Literal))
  | createStreamAsSelect (location : Location) (name : List String) (query : Query.Draft)
    (notExists : Bool) (properties : List (String × Literal)) (partitionBy? : Option Expr.Draft)
  | createTableAsSelect (location : Location) (name : List String) (query : Query.Draft)
    (notExists : Bool) (properties : List (String × Literal))
  | insertInto (location : Location) (target : List String) (query : Query.Draft)
    (partitionBy? : Option Expr.Draft)
  | dropTable (location : Location) (name : List String) (ifExists deleteTopic : Bool)
  | createConnector (location : Location) (name : String) (config : List (String × Literal))
    (connectorType : ConnectorType)
  | query (query : Query.Draft)

mutual

def Statement.draft : Statement → Statement.Draft
  | .several l ss => .statements l (Statement.draftList ss)
  | .create l .stream n es i p => .createStream l n.parts es i p.entries
  | .create l .table n es i p => .createTable l n.parts es i p.entries
  | .createStreamAs l n q i p e? =>
    .createStreamAsSelect l n.parts q.draft i p.entries (e?.map Expr.draft)
  | .createTableAs l n q i p => .createTableAsSelect l n.parts q.draft i p.entries
  | .insertInto l t q e? => .insertInto l t.parts q.draft (e?.map Expr.draft)
  | .dropTable l n i d => .dropTable l n.parts i d
  | .createConnector l n p t => .createConnector l n p.entries t
  | .query q => .query q.draft
termination_by structural s => s

def Statement.draftList : List Statement → List Statement.Draft
  | [] => []
  | s :: ss => s.draft :: Statement.draftList ss
termination_by structural ss => ss

end

/-- A collection, made from what both kinds of collections are made from. -/
def Statement.buildCollection (collection : Collection) (l : Location) (name : List String)
    (elements : List TableElement) (notExists : Bool) (properties : List (String × Literal)) :
    Except Violation Statement :=
  return (Statement.create .unknown collection (← Name.of name)
    (← elements.mapM TableElement.build) notExists (← Properties.build properties)).withLocation l

mutual

def Statement.Draft.build : Statement.Draft → Except Violation Statement
  | .statements l ss =>
    return (Statement.several .unknown (← Statement.Draft.buildList ss)).withLocation l
  | .createStream l n es i p => Statement.buildCollection .stream l n es i p
  | .createTable l n es i p => Statement.buildCollection .table l n es i p
  | .createStreamAsSelect l n q i p e? =>
    return (Statement.createStreamAs .unknown (← Name.of n) (← q.build) i (← Properties.build p)
      (← e?.mapM Expr.Draft.build)).withLocation l
  | .createTableAsSelect l n q i p =>
    return (Statement.createTableAs .unknown (← Name.of n) (← q.build) i
      (← Properties.build p)).withLocation l
  | .insertInto l t q e? =>
    return (Statement.insertInto .unknown (← Name.of t) (← q.build)
      (← e?.mapM Expr.Draft.build)).withLocation l
  | .dropTable l n i d =>
    return (Statement.dropTable .unknown (← Name.of n) i d).withLocation l
  | .createConnector l n p t =>
    return (← Statement.connectorOf n (← Properties.build p) t).withLocation l
  | .query q => return .query (← q.build)
termination_by structural d => d

def Statement.Draft.buildList : List Statement.Draft → Except Violation (List Statement)
  | [] => return []
  | d :: ds => return (← d.build) :: (← Statement.Draft.buildList ds)
termination_by structural ds => ds

end

/-! ## Nodes -/

/-- The draft of a node of any family. -/
inductive Node.Draft where
  | statement (d : Statement.Draft)
  | expression (d : Expr.Draft)
  | relation (d : Relation.Draft)
  | select (d : Select.Draft)
  | selectItem (d : SelectItem.Draft)
  | groupBy (d : GroupBy.Draft)
  | groupingElement (d : GroupingElement.Draft)
  | window (d : Window)
  | ksqlWindow (d : KsqlWindow)
  | within (d : Within)
  | tableElement (d : TableElement)

namespace Node

/-- What can be asked of the node and of all that is in it. -/
def draft : Node → Node.Draft
  | statement s => .statement s.draft
  | expression e => .expression e.draft
  | relation r => .relation r.draft
  | select s => .select s.draft
  | selectItem i => .selectItem i.draft
  | groupBy g => .groupBy g.draft
  | groupingElement g => .groupingElement g.draft
  | window w => .window w
  | ksqlWindow w => .ksqlWindow w
  | within w => .within w
  | tableElement e => .tableElement e

/-- The node of the draft, if no constructor refuses. -/
def Draft.build : Node.Draft → Except Violation Node
  | .statement d => return .statement (← d.build)
  | .expression d => return .expression (← d.build)
  | .relation d => return .relation (← d.build)
  | .select d => return .select (← d.build)
  | .selectItem d => return .selectItem (← d.build)
  | .groupBy d => return .groupBy (← d.build)
  | .groupingElement d => return .groupingElement (← d.build)
  | .window d => return .window d.build
  | .ksqlWindow d => return .ksqlWindow d.build
  | .within d => return .within d.build
  | .tableElement d => return .tableElement (← d.build)

end Node

end SqlTree
