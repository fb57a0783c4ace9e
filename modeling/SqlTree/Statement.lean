import SqlTree.Properties
import SqlTree.Query
import SqlTree.TableElement

/-!
# Statements

The statements of the dialect: creating and dropping streams and tables, feeding them from queries,
creating connectors, and the queries themselves. Several statements in a row are a statement too.
-/

namespace SqlTree

/-- The two kinds of collections. -/
inductive Collection where
  | stream | table
deriving DecidableEq, Repr, Inhabited

def Collection.text : Collection → String
  | stream => "STREAM"
  | table => "TABLE"

/-- A statement. -/
inductive Statement where
  | several (location : Location) (statements : List Statement)
  | create (location : Location) (collection : Collection) (name : Name)
    (elements : List TableElement) (ifNotExists : Bool) (properties : Properties)
  | createStreamAs (location : Location) (name : Name) (query : Query) (ifNotExists : Bool)
    (properties : Properties) (partitionBy? : Option Expr)
  | createTableAs (location : Location) (name : Name) (query : Query) (ifNotExists : Bool)
    (properties : Properties)
  | insertInto (location : Location) (target : Name) (query : Query)
    (partitionBy? : Option Expr)
  | dropTable (location : Location) (name : Name) (ifExists deleteTopic : Bool)
  | createConnector (location : Location) (name : String) (properties : Properties)
    (type : ConnectorType)
  | query (query : Query)

instance : Inhabited Statement := ⟨.several default []⟩

namespace Statement

/-- The checked form of `createConnector`. -/
def connectorOf (name : String) (properties : Properties) (type : ConnectorType) :
    Except Violation Statement :=
  if name = "" then .error .emptyConnectorName
  else .ok (.createConnector .unknown name properties type)

def location : Statement → Location
  | several l _ | create l _ _ _ _ _ | createStreamAs l _ _ _ _ _ | createTableAs l _ _ _ _
  | insertInto l _ _ _ | dropTable l _ _ _ | createConnector l _ _ _ => l
  | query q => q.location

def withLocation (l : Location) : Statement → Statement
  | several _ ss => several l ss
  | create _ c n es i p => create l c n es i p
  | createStreamAs _ n q i p e => createStreamAs l n q i p e
  | createTableAs _ n q i p => createTableAs l n q i p
  | insertInto _ t q e => insertInto l t q e
  | dropTable _ n i d => dropTable l n i d
  | createConnector _ n p t => createConnector l n p t
  | query q => query { q with location := l }

/-- A created collection with other columns and properties. -/
def copyWith (s : Statement) (elements : List TableElement) (properties : Properties) :
    Statement :=
  match s with
  | create l c n _ i _ => create l c n elements i properties
  | s => s

def ifNotExistsText (ifNotExists : Bool) : String := if ifNotExists then "IF NOT EXISTS " else ""

def withText (properties : Properties) : String :=
  if properties.isEmpty then "" else " WITH " ++ properties.text

def elementsText (elements : List TableElement) : String :=
  if elements.isEmpty then "" else " " ++ TableElement.listText elements

def partitionText (partitionBy? : Option Expr) : String :=
  Query.clause " PARTITION BY " Expr.text partitionBy?

mutual

def text : Statement → String
  | several _ statements => ";\n".intercalate (texts statements)
  | create _ collection name elements ifNotExists properties =>
    "CREATE " ++ collection.text ++ " " ++ ifNotExistsText ifNotExists ++ name.text ++
      elementsText elements ++ withText properties
  | createStreamAs _ name q ifNotExists properties partitionBy? =>
    "CREATE STREAM " ++ ifNotExistsText ifNotExists ++ name.text ++ withText properties ++
      " AS " ++ q.text ++ partitionText partitionBy?
  | createTableAs _ name q ifNotExists properties =>
    "CREATE TABLE " ++ ifNotExistsText ifNotExists ++ name.text ++ withText properties ++
      " AS " ++ q.text
  | insertInto _ target q partitionBy? =>
    "INSERT INTO " ++ target.text ++ " " ++ q.text ++ partitionText partitionBy?
  | dropTable _ name ifExists deleteTopic =>
    "DROP TABLE " ++ (if ifExists then "IF EXISTS " else "") ++ name.text ++
      if deleteTopic then " DELETE TOPIC" else ""
  | createConnector _ name properties type =>
    "CREATE " ++ type.text ++ " CONNECTOR " ++ name ++ withText properties
  | query q => q.text
termination_by structural s => s

def texts : List Statement → List String
  | [] => []
  | s :: ss => s.text :: texts ss
termination_by structural ss => ss

end

mutual

/-- Are the statements the same, wherever they stand? -/
def same : Statement → Statement → Bool
  | several _ ss, several _ ss' => sameList ss ss'
  | create _ c n es i p, create _ c' n' es' i' p' =>
    c == c' && n == n' && es == es' && i == i' && p == p'
  | createStreamAs _ n q i p e, createStreamAs _ n' q' i' p' e' =>
    n == n' && q == q' && i == i' && p == p' && e == e'
  | createTableAs _ n q i p, createTableAs _ n' q' i' p' => n == n' && q == q' && i == i' && p == p'
  | insertInto _ t q e, insertInto _ t' q' e' => t == t' && q == q' && e == e'
  | dropTable _ n i d, dropTable _ n' i' d' => n == n' && i == i' && d == d'
  | createConnector _ n p t, createConnector _ n' p' t' => n == n' && p == p' && t == t'
  | query q, query q' => q == q'
  | _, _ => false
termination_by structural s => s

def sameList : List Statement → List Statement → Bool
  | [], [] => true
  | s :: ss, s' :: ss' => s.same s' && sameList ss ss'
  | _, _ => false
termination_by structural ss => ss

end

instance : BEq Statement := ⟨same⟩

mutual

def feed : Statement → Feed
  | several _ ss => .number 0 :: .number ss.length :: feedList ss
  | create _ c n es i p =>
    .number 1 :: .number c.ctorIdx ::
      (n.feed ++ Feed.ofList TableElement.feed es ++ Feed.ofBool i ++ p.feed)
  | createStreamAs _ n q i p e =>
    .number 2 :: (n.feed ++ q.feed ++ Feed.ofBool i ++ p.feed ++ Feed.ofOption Expr.feed e)
  | createTableAs _ n q i p => .number 3 :: (n.feed ++ q.feed ++ Feed.ofBool i ++ p.feed)
  | insertInto _ t q e => .number 4 :: (t.feed ++ q.feed ++ Feed.ofOption Expr.feed e)
  | dropTable _ n i d => .number 5 :: (n.feed ++ Feed.ofBool i ++ Feed.ofBool d)
  | createConnector _ n p t => .number 6 :: .text n :: (p.feed ++ [.number t.ctorIdx])
  | query q => .number 7 :: q.feed
termination_by structural s => s

def feedList : List Statement → Feed
  | [] => []
  | s :: ss => s.feed ++ feedList ss
termination_by structural ss => ss

end

end Statement

end SqlTree
