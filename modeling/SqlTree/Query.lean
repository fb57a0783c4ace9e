import SqlTree.Grouping
import SqlTree.Relation

/-!
# Queries

A query selects items from a relation and may cut the stream into windows, filter rows, group them,
filter groups and limit the number of results.
-/

namespace SqlTree

/-- An item of a selection. -/
inductive SelectItem where
  | single (location : Location) (expression : Expr) (newName? : Option String)
  /-- All columns, or all columns of one relation. -/
  | all (location : Location) (qualifier? : Option Name)
deriving Inhabited

namespace SelectItem

def location : SelectItem → Location
  | single l _ _ | all l _ => l

def withLocation (l : Location) : SelectItem → SelectItem
  | single _ e a => single l e a
  | all _ q => all l q

/-- The item with another expression. -/
def copyWith (i : SelectItem) (expression : Expr) : SelectItem :=
  match i with
  | single l _ a => single l expression a
  | i => i

def text : SelectItem → String
  | single _ e (some newName) => e.text ++ " AS " ++ newName
  | single _ e none => e.text
  | all _ (some qualifier) => qualifier.text ++ ".*"
  | all _ none => "*"

def same : SelectItem → SelectItem → Bool
  | single _ e a, single _ e' a' => e == e' && a == a'
  | all _ q, all _ q' => q == q'
  | _, _ => false

instance : BEq SelectItem := ⟨same⟩

def feed : SelectItem → Feed
  | single _ e a => .number 0 :: (e.feed ++ Feed.ofOption (fun newName => [.text newName]) a)
  | all _ q => .number 1 :: Feed.ofOption Name.feed q

end SelectItem

/-- The selection of a query. -/
structure Select where
  location : Location
  items : List SelectItem
deriving Inhabited

namespace Select

def text (s : Select) : String := "SELECT " ++ ", ".intercalate (s.items.map SelectItem.text)

def same (a b : Select) : Bool := a.items == b.items

instance : BEq Select := ⟨same⟩

def feed (s : Select) : Feed := Feed.ofList SelectItem.feed s.items

end Select

/-- A query. -/
structure Query where
  location : Location
  select : Select
  source : Relation
  window? : Option Window
  filter? : Option Expr
  groupBy? : Option GroupBy
  having? : Option Expr
  limit? : Option UInt32
deriving Inhabited

namespace Query

/-- The query that only selects. -/
def simple (select : Select) (source : Relation) : Query :=
  ⟨.unknown, select, source, none, none, none, none, none⟩

/-- An optional clause after the words that open it. -/
def clause {α : Type} (words : String) (text : α → String) : Option α → String
  | none => ""
  | some a => words ++ text a

def text (q : Query) : String :=
  q.select.text ++ " FROM " ++ q.source.text ++ clause " " Window.text q.window? ++
    clause " WHERE " Expr.text q.filter? ++ clause " " GroupBy.text q.groupBy? ++
    clause " HAVING " Expr.text q.having? ++ clause " LIMIT " toString q.limit?

def same (a b : Query) : Bool :=
  a.select == b.select && a.source == b.source && a.window? == b.window? &&
    a.filter? == b.filter? && a.groupBy? == b.groupBy? && a.having? == b.having? &&
    a.limit? == b.limit?

instance : BEq Query := ⟨same⟩

def feed (q : Query) : Feed :=
  q.select.feed ++ q.source.feed ++ Feed.ofOption Window.feed q.window? ++
    Feed.ofOption Expr.feed q.filter? ++ Feed.ofOption GroupBy.feed q.groupBy? ++
    Feed.ofOption Expr.feed q.having? ++ Feed.ofOption (fun n => [.number n.toNat]) q.limit?

end Query

end SqlTree
