/-!
# Kinds of nodes

Every node has exactly one kind; rewriting rules and error messages speak of kinds. They are ordered
as they are declared: statements, expressions, relations, then the parts of queries and of tables.
-/

namespace SqlTree

/-- The kind of a node. -/
inductive Kind where
  | statements | createStream | createTable | createStreamAsSelect | createTableAsSelect
  | insertInto | dropTable | createConnector | query
  | arithmeticBinary | arithmeticUnary | comparison | logicalBinary | between | inPredicate
  | inList | like | isNull | isNotNull | not | functionCall | cast | dereference | subscript
  | simpleCase | searchedCase | whenClause | qualifiedNameReference | literal
  | table | aliasedRelation | join
  | select | singleColumn | allColumns | groupBy | simpleGroupBy | rollup | cube | groupingSets
  | windowExpression | ksqlWindowExpression | withinExpression | tableElement
deriving DecidableEq, Repr, Inhabited

namespace Kind

/-- All kinds, in order. -/
def all : List Kind := [
  statements, createStream, createTable, createStreamAsSelect, createTableAsSelect, insertInto,
  dropTable, createConnector, query, arithmeticBinary, arithmeticUnary, comparison,
  logicalBinary, between, inPredicate, inList, like, isNull, isNotNull, not, functionCall, cast,
  dereference, subscript, simpleCase, searchedCase, whenClause, qualifiedNameReference, literal,
  table, aliasedRelation, join, select, singleColumn, allColumns, groupBy, simpleGroupBy, rollup,
  cube, groupingSets, windowExpression, ksqlWindowExpression, withinExpression, tableElement]

/-- The name of the kind. -/
def name : Kind → String
  | statements => "Statements"
  | createStream => "CreateStream"
  | createTable => "CreateTable"
  | createStreamAsSelect => "CreateStreamAsSelect"
  | createTableAsSelect => "CreateTableAsSelect"
  | insertInto => "InsertInto"
  | dropTable => "DropTable"
  | createConnector => "CreateConnector"
  | query => "Query"
  | arithmeticBinary => "ArithmeticBinary"
  | arithmeticUnary => "ArithmeticUnary"
  | comparison => "Comparison"
  | logicalBinary => "LogicalBinary"
  | between => "Between"
  | inPredicate => "InPredicate"
  | inList => "InList"
  | like => "Like"
  | isNull => "IsNull"
  | isNotNull => "IsNotNull"
  | not => "Not"
  | functionCall => "FunctionCall"
  | cast => "Cast"
  | dereference => "Dereference"
  | subscript => "Subscript"
  | simpleCase => "SimpleCase"
  | searchedCase => "SearchedCase"
  | whenClause => "WhenClause"
  | qualifiedNameReference => "QualifiedNameReference"
  | literal => "Literal"
  | table => "Table"
  | aliasedRelation => "AliasedRelation"
  | join => "Join"
  | select => "Select"
  | singleColumn => "SingleColumn"
  | allColumns => "AllColumns"
  | groupBy => "GroupBy"
  | simpleGroupBy => "SimpleGroupBy"
  | rollup => "Rollup"
  | cube => "Cube"
  | groupingSets => "GroupingSets"
  | windowExpression => "WindowExpression"
  | ksqlWindowExpression => "KsqlWindowExpression"
  | withinExpression => "WithinExpression"
  | tableElement => "TableElement"

/-- The place of the kind in the order. -/
def rank (k : Kind) : Nat := k.ctorIdx

def order (a b : Kind) : Ordering := compare a.rank b.rank

end Kind

end SqlTree
