import SqlTree.Expr.Same
import SqlTree.Expr.Text
import SqlTree.Window

/-!
# Relations

What a query reads from: a table, a relation under another name, or two relations joined on a
condition and perhaps within a time.
-/

namespace SqlTree

/-- The condition of a join. -/
inductive JoinCriteria where
  | on (condition : Expr)
deriving Inhabited

namespace JoinCriteria

def text : JoinCriteria → String
  | on condition => "ON " ++ condition.text

def same : JoinCriteria → JoinCriteria → Bool
  | on a, on b => a == b

instance : BEq JoinCriteria := ⟨same⟩

def feed : JoinCriteria → Feed
  | on condition => condition.feed

end JoinCriteria

/-- What a query reads from. -/
inductive Relation where
  | table (location : Location) (name : Name)
  | aliased (location : Location) (relation : Relation) (newName : String)
  | join (location : Location) (type : JoinType) (left right : Relation)
    (criteria : JoinCriteria) (within? : Option Within)
deriving Inhabited

namespace Relation

/-- The relation under another name, which is not empty. -/
def aliasedOf (relation : Relation) (newName : String) : Except Violation Relation :=
  if newName = "" then .error .emptyAlias else .ok (.aliased .unknown relation newName)

def location : Relation → Location
  | table l _ | aliased l _ _ | join l _ _ _ _ _ => l

def withLocation (l : Location) : Relation → Relation
  | table _ n => table l n
  | aliased _ r a => aliased l r a
  | join _ t a b c w => join l t a b c w

def text : Relation → String
  | table _ name => name.text
  | aliased _ relation newName => relation.text ++ " AS " ++ newName
  | join _ type left right criteria within? =>
    left.text ++ " " ++ type.text ++ " JOIN " ++ right.text ++
      (match within? with
        | some within => " " ++ within.text
        | none => "") ++ " " ++ criteria.text

def same : Relation → Relation → Bool
  | table _ n, table _ n' => n == n'
  | aliased _ r a, aliased _ r' a' => r.same r' && a == a'
  | join _ t a b c w, join _ t' a' b' c' w' =>
    t == t' && a.same a' && b.same b' && c == c' && w == w'
  | _, _ => false

instance : BEq Relation := ⟨same⟩

def feed : Relation → Feed
  | table _ name => .number 0 :: name.feed
  | aliased _ relation newName => .number 1 :: (relation.feed ++ [.text newName])
  | join _ type left right criteria within? =>
    .number 2 :: .number type.ctorIdx ::
      (left.feed ++ right.feed ++ criteria.feed ++ Feed.ofOption Within.feed within?)

end Relation

end SqlTree
