import SqlTree.Expr.Same
import SqlTree.Expr.Text

/-!
# Grouping clauses

How the rows of a query are grouped: by columns, by the beginnings of a list of columns (`ROLLUP`),
by all choices among columns (`CUBE`), or by sets of columns given one by one. A `CUBE` has at most
sixteen distinct columns.
-/

namespace SqlTree

/-- Columns that rows are grouped by: distinct ones, in the order in which they were added. -/
abbrev GroupingSet := List Expr

namespace GroupingSet

/-- Adds a column, unless it is there. -/
def insert (set : GroupingSet) (column : Expr) : GroupingSet :=
  if set.contains column then set else set ++ [column]

/-- Adds the columns one after the other. -/
def union (set : GroupingSet) (columns : List Expr) : GroupingSet := columns.foldl insert set

/-- The set of the columns. -/
def of (columns : List Expr) : GroupingSet := union [] columns

end GroupingSet

/-- One element of a `GROUP BY`. -/
inductive GroupingElement where
  | simple (location : Location) (columns : List Expr)
  | rollup (location : Location) (columns : List Expr)
  | cube (location : Location) (columns : List Expr)
  | sets (location : Location) (sets : List (List Expr))
deriving Inhabited

namespace GroupingElement

/-- The most distinct columns that a `CUBE` may have. -/
def cubeLimit : Nat := 16

/-- The columns, if a `CUBE` may have them. -/
def cubeColumns (columns : List Expr) : Except Violation (List Expr) :=
  let count := (GroupingSet.of columns).length
  if cubeLimit < count then .error (.tooManyCubeColumns count) else .ok columns

/-- The checked form of `cube`. -/
def cubeOf (columns : List Expr) : Except Violation GroupingElement :=
  (cubeColumns columns).map (.cube .unknown)

def location : GroupingElement → Location
  | simple l _ | rollup l _ | cube l _ | sets l _ => l

def withLocation (l : Location) : GroupingElement → GroupingElement
  | simple _ cs => simple l cs
  | rollup _ cs => rollup l cs
  | cube _ cs => cube l cs
  | sets _ ss => sets l ss

def columnsText (columns : List Expr) : String := ", ".intercalate (Expr.texts columns)

def text : GroupingElement → String
  | simple _ columns => columnsText columns
  | rollup _ columns => "ROLLUP (" ++ columnsText columns ++ ")"
  | cube _ columns => "CUBE (" ++ columnsText columns ++ ")"
  | sets _ ss =>
    "GROUPING SETS (" ++ ", ".intercalate (ss.map fun s => "(" ++ columnsText s ++ ")") ++ ")"

def same : GroupingElement → GroupingElement → Bool
  | simple _ cs, simple _ cs' | rollup _ cs, rollup _ cs' | cube _ cs, cube _ cs' => cs == cs'
  | sets _ ss, sets _ ss' => ss == ss'
  | _, _ => false

instance : BEq GroupingElement := ⟨same⟩

def feed : GroupingElement → Feed
  | simple _ columns => .number 0 :: Feed.ofList Expr.feed columns
  | rollup _ columns => .number 1 :: Feed.ofList Expr.feed columns
  | cube _ columns => .number 2 :: Feed.ofList Expr.feed columns
  | sets _ ss => .number 3 :: Feed.ofList (Feed.ofList Expr.feed) ss

end GroupingElement

/-- A `GROUP BY` clause. -/
structure GroupBy where
  location : Location
  elements : List GroupingElement
deriving Inhabited

namespace GroupBy

def text (g : GroupBy) : String :=
  "GROUP BY " ++ ", ".intercalate (g.elements.map GroupingElement.text)

def same (a b : GroupBy) : Bool := a.elements == b.elements

instance : BEq GroupBy := ⟨same⟩

def feed (g : GroupBy) : Feed := Feed.ofList GroupingElement.feed g.elements

end GroupBy

end SqlTree
