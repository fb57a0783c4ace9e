import SqlTree.Expr

/-!
# Equality of expressions

Two expressions are the same when they have the same form and the same parts; locations take no
part, and literals are compared as values. The feed of an expression follows the same rule.
-/

namespace SqlTree

def UnaryOperator.same : UnaryOperator → UnaryOperator → Bool
  | sign s, sign s' => s == s'
  | isNull, isNull | isNotNull, isNotNull | not, not => true
  | cast t, cast t' => t == t'
  | field n, field n' => n == n'
  | _, _ => false

instance : BEq UnaryOperator := ⟨UnaryOperator.same⟩

mutual

/-- Are the expressions the same, wherever they stand? -/
def Expr.same : Expr → Expr → Bool
  | .literal _ v, .literal _ v' => v == v'
  | .column _ n, .column _ n' => n == n'
  | .unary _ op e, .unary _ op' e' => op == op' && e.same e'
  | .binary _ op a b, .binary _ op' a' b' => op == op' && a.same a' && b.same b'
  | .between _ v a b, .between _ v' a' b' => v.same v' && a.same a' && b.same b'
  | .isIn _ v xs, .isIn _ v' xs' => v.same v' && xs.same xs'
  | .call _ f xs, .call _ f' xs' => f == f' && Expr.sameList xs xs'
  | .case _ o bs e, .case _ o' bs' e' =>
    Expr.sameOption o o' && Branch.sameList bs bs' && Expr.sameOption e e'
  | .list xs, .list xs' => xs.same xs'
  | .branch b, .branch b' => b.same b'
  | _, _ => false
termination_by structural e => e

def InList.same : InList → InList → Bool
  | ⟨_, xs⟩, ⟨_, xs'⟩ => Expr.sameList xs xs'
termination_by structural xs => xs

def Branch.same : Branch → Branch → Bool
  | ⟨_, c, r⟩, ⟨_, c', r'⟩ => c.same c' && r.same r'
termination_by structural b => b

def Expr.sameOption : Option Expr → Option Expr → Bool
  | none, none => true
  | some e, some e' => e.same e'
  | _, _ => false
termination_by structural e => e

def Expr.sameList : List Expr → List Expr → Bool
  | [], [] => true
  | e :: es, e' :: es' => e.same e' && Expr.sameList es es'
  | _, _ => false
termination_by structural es => es

def Branch.sameList : List Branch → List Branch → Bool
  | [], [] => true
  | b :: bs, b' :: bs' => b.same b' && Branch.sameList bs bs'
  | _, _ => false
termination_by structural bs => bs

end

instance : BEq Expr := ⟨Expr.same⟩

instance : BEq InList := ⟨InList.same⟩

instance : BEq Branch := ⟨Branch.same⟩

/-! ## Feeds

The feed of an operation has the same content as one that follows the declarations of the forms
field by field, but not its order: the operations on one operand share a tag, as do those on two,
with the tag of the operator behind it; and the type of a cast and the name of a field come before
the operand, as parts of the operator, and not after it. So which expressions feed the same is not
affected, only what the number is that a hasher makes of the feed. -/

def UnaryOperator.feed : UnaryOperator → Feed
  | sign s => [.number 0, .number s.ctorIdx]
  | isNull => [.number 1]
  | isNotNull => [.number 2]
  | not => [.number 3]
  | cast type => .number 4 :: type.feed
  | field name => [.number 5, .text name]

def BinaryOperator.feed : BinaryOperator → Feed
  | arithmetic op => [.number 0, .number op.ctorIdx]
  | comparison op => [.number 1, .number op.ctorIdx]
  | logical op => [.number 2, .number op.ctorIdx]
  | like => [.number 3]
  | subscript => [.number 4]

def Name.feed (n : Name) : Feed := Feed.ofList (fun part => [.text part]) n.parts

mutual

/-- The form, then its parts in order; of an operation the operator first. -/
def Expr.feed : Expr → Feed
  | .literal _ value => .number 0 :: value.feed
  | .column _ name => .number 1 :: name.feed
  | .unary _ op e => .number 2 :: (op.feed ++ e.feed)
  | .binary _ op a b => .number 3 :: (op.feed ++ a.feed ++ b.feed)
  | .between _ v a b => .number 4 :: (v.feed ++ a.feed ++ b.feed)
  | .isIn _ v xs => .number 5 :: (v.feed ++ xs.feed)
  | .call _ f xs => .number 6 :: (f.feed ++ .number xs.length :: Expr.feedList xs)
  | .case _ o bs e =>
    .number 7 :: (Expr.feedOption o ++ .number bs.length :: Branch.feedList bs ++ Expr.feedOption e)
  | .list xs => .number 8 :: xs.feed
  | .branch b => .number 9 :: b.feed
termination_by structural e => e

def InList.feed : InList → Feed
  | ⟨_, xs⟩ => .number xs.length :: Expr.feedList xs
termination_by structural xs => xs

def Branch.feed : Branch → Feed
  | ⟨_, c, r⟩ => c.feed ++ r.feed
termination_by structural b => b

def Expr.feedOption : Option Expr → Feed
  | none => [.number 0]
  | some e => .number 1 :: e.feed
termination_by structural e => e

def Expr.feedList : List Expr → Feed
  | [] => []
  | e :: es => e.feed ++ Expr.feedList es
termination_by structural es => es

def Branch.feedList : List Branch → Feed
  | [] => []
  | b :: bs => b.feed ++ Branch.feedList bs
termination_by structural bs => bs

end

end SqlTree
