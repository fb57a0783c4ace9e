import SqlTree.Kind
import SqlTree.Statement

/-!
# Nodes

A node is any piece of a statement that can be looked at or replaced by itself: one type over the
eleven families. A slot is a place for a node inside another one; it admits the nodes of one family,
or only those of one kind.
-/

namespace SqlTree

/-- A node of any family. -/
inductive Node where
  | statement (s : Statement)
  | expression (e : Expr)
  | relation (r : Relation)
  | select (s : Select)
  | selectItem (i : SelectItem)
  | groupBy (g : GroupBy)
  | groupingElement (g : GroupingElement)
  | window (w : Window)
  | ksqlWindow (w : KsqlWindow)
  | within (w : Within)
  | tableElement (e : TableElement)
deriving Inhabited

def Statement.kind : Statement → Kind
  | several .. => .statements
  | create _ .stream .. => .createStream
  | create _ .table .. => .createTable
  | createStreamAs .. => .createStreamAsSelect
  | createTableAs .. => .createTableAsSelect
  | insertInto .. => .insertInto
  | dropTable .. => .dropTable
  | createConnector .. => .createConnector
  | query _ => .query

def UnaryOperator.kind : UnaryOperator → Kind
  | sign _ => .arithmeticUnary
  | isNull => .isNull
  | isNotNull => .isNotNull
  | not => .not
  | cast _ => .cast
  | field _ => .dereference

def BinaryOperator.kind : BinaryOperator → Kind
  | arithmetic _ => .arithmeticBinary
  | comparison _ => .comparison
  | logical _ => .logicalBinary
  | like => .like
  | subscript => .subscript

def Expr.kind : Expr → Kind
  | literal .. => .literal
  | column .. => .qualifiedNameReference
  | unary _ op _ => op.kind
  | binary _ op _ _ => op.kind
  | between .. => .between
  | isIn .. => .inPredicate
  | call .. => .functionCall
  | case _ (some _) .. => .simpleCase
  | case _ none .. => .searchedCase
  | list _ => .inList
  | branch _ => .whenClause

def Relation.kind : Relation → Kind
  | table .. => .table
  | aliased .. => .aliasedRelation
  | join .. => .join

def SelectItem.kind : SelectItem → Kind
  | single .. => .singleColumn
  | all .. => .allColumns

def GroupingElement.kind : GroupingElement → Kind
  | simple .. => .simpleGroupBy
  | rollup .. => .rollup
  | cube .. => .cube
  | sets .. => .groupingSets

namespace Node

def kind : Node → Kind
  | statement s => s.kind
  | expression e => e.kind
  | relation r => r.kind
  | select _ => .select
  | selectItem i => i.kind
  | groupBy _ => .groupBy
  | groupingElement g => g.kind
  | window _ => .windowExpression
  | ksqlWindow _ => .ksqlWindowExpression
  | within _ => .withinExpression
  | tableElement _ => .tableElement

def location : Node → Location
  | statement s => s.location
  | expression e => e.location
  | relation r => r.location
  | select s => s.location
  | selectItem i => i.location
  | groupBy g => g.location
  | groupingElement g => g.location
  | window w => w.location
  | ksqlWindow w => w.location
  | within w => w.location
  | tableElement e => e.location

def withLocation (l : Location) : Node → Node
  | statement s => statement (s.withLocation l)
  | expression e => expression (e.withLocation l)
  | relation r => relation (r.withLocation l)
  | select s => select { s with location := l }
  | selectItem i => selectItem (i.withLocation l)
  | groupBy g => groupBy { g with location := l }
  | groupingElement g => groupingElement (g.withLocation l)
  | window w => window { w with location := l }
  | ksqlWindow w => ksqlWindow { w with location := l }
  | within w => within { w with location := l }
  | tableElement e => tableElement { e with location := l }

/-- The node as it stands in a statement. -/
def text : Node → String
  | statement s => s.text
  | expression e => e.text
  | relation r => r.text
  | select s => s.text
  | selectItem i => i.text
  | groupBy g => g.text
  | groupingElement g => g.text
  | window w => w.text
  | ksqlWindow w => w.text
  | within w => w.text
  | tableElement e => e.text

/-- Are the nodes the same, wherever they stand? -/
def same : Node → Node → Bool
  | statement a, statement b => a == b
  | expression a, expression b => a == b
  | relation a, relation b => a == b
  | select a, select b => a == b
  | selectItem a, selectItem b => a == b
  | groupBy a, groupBy b => a == b
  | groupingElement a, groupingElement b => a == b
  | window a, window b => a == b
  | ksqlWindow a, ksqlWindow b => a == b
  | within a, within b => a == b
  | tableElement a, tableElement b => a == b
  | _, _ => false

instance : BEq Node := ⟨same⟩

def feed : Node → Feed
  | statement s => .number 0 :: s.feed
  | expression e => .number 1 :: e.feed
  | relation r => .number 2 :: r.feed
  | select s => .number 3 :: s.feed
  | selectItem i => .number 4 :: i.feed
  | groupBy g => .number 5 :: g.feed
  | groupingElement g => .number 6 :: g.feed
  | window w => .number 7 :: w.feed
  | ksqlWindow w => .number 8 :: w.feed
  | within w => .number 9 :: w.feed
  | tableElement e => .number 10 :: e.feed

/-! ## Looking into a node -/

def statement? : Node → Option Statement
  | statement s => some s
  | _ => none

def query? : Node → Option Query
  | statement (.query q) => some q
  | _ => none

def expression? : Node → Option Expr
  | expression e => some e
  | _ => none

def list? : Node → Option InList
  | expression (.list xs) => some xs
  | _ => none

def branch? : Node → Option Branch
  | expression (.branch b) => some b
  | _ => none

def relation? : Node → Option Relation
  | relation r => some r
  | _ => none

def select? : Node → Option Select
  | select s => some s
  | _ => none

def selectItem? : Node → Option SelectItem
  | selectItem i => some i
  | _ => none

def groupBy? : Node → Option GroupBy
  | groupBy g => some g
  | _ => none

def groupingElement? : Node → Option GroupingElement
  | groupingElement g => some g
  | _ => none

def window? : Node → Option Window
  | window w => some w
  | _ => none

def ksqlWindow? : Node → Option KsqlWindow
  | ksqlWindow w => some w
  | _ => none

def within? : Node → Option Within
  | within w => some w
  | _ => none

def tableElement? : Node → Option TableElement
  | tableElement e => some e
  | _ => none

end Node

/-- What a place for a node admits. -/
inductive Slot where
  | statement | expression | relation | select | selectItem | groupBy | groupingElement
  | window | ksqlWindow | within | tableElement
  | query | branch | list
deriving DecidableEq, Repr, Inhabited

namespace Slot

def all : List Slot :=
  [statement, expression, relation, select, selectItem, groupBy, groupingElement, window,
    ksqlWindow, within, tableElement, query, branch, list]

def name : Slot → String
  | statement => "Statement"
  | expression => "Expression"
  | relation => "Relation"
  | select => "Select"
  | selectItem => "SelectItem"
  | groupBy => "GroupBy"
  | groupingElement => "GroupingElement"
  | window => "WindowExpression"
  | ksqlWindow => "KsqlWindowExpression"
  | within => "WithinExpression"
  | tableElement => "TableElement"
  | query => "Query"
  | branch => "WhenClause"
  | list => "InListExpression"

/-- May the node stand in the slot? -/
def admits : Slot → Node → Bool
  | statement, n => n.statement?.isSome
  | expression, n => n.expression?.isSome
  | relation, n => n.relation?.isSome
  | select, n => n.select?.isSome
  | selectItem, n => n.selectItem?.isSome
  | groupBy, n => n.groupBy?.isSome
  | groupingElement, n => n.groupingElement?.isSome
  | window, n => n.window?.isSome
  | ksqlWindow, n => n.ksqlWindow?.isSome
  | within, n => n.within?.isSome
  | tableElement, n => n.tableElement?.isSome
  | query, n => n.query?.isSome
  | branch, n => n.branch?.isSome
  | list, n => n.list?.isSome

end Slot

end SqlTree
