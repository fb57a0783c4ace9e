import SqlTree.Literal
import SqlTree.Location
import SqlTree.Name
import SqlTree.SqlType
import SqlTree.Symbol

/-!
# Expressions

The expressions of a statement. Every expression carries the location it was read from. An `IN` list
and a `WHEN` branch stand in places of their own, and may also stand alone as expressions.
-/

namespace SqlTree

/-- The operators on one operand. -/
inductive UnaryOperator where
  | sign (sign : Sign)
  | isNull
  | isNotNull
  | not
  | cast (type : SqlType)
  /-- The field of a struct. -/
  | field (name : String)
deriving Inhabited

/-- The operators on two operands. -/
inductive BinaryOperator where
  | arithmetic (operator : ArithmeticOperator)
  | comparison (operator : ComparisonOperator)
  | logical (operator : LogicalOperator)
  | like
  /-- The element of an array or map. -/
  | subscript
deriving DecidableEq, Repr, Inhabited

mutual

/-- An expression. -/
inductive Expr where
  | literal (location : Location) (value : Literal)
  | column (location : Location) (name : Name)
  | unary (location : Location) (operator : UnaryOperator) (operand : Expr)
  | binary (location : Location) (operator : BinaryOperator) (left right : Expr)
  | between (location : Location) (value low high : Expr)
  | isIn (location : Location) (value : Expr) (list : InList)
  | call (location : Location) (function : Name) (arguments : List Expr)
  /-- `CASE`, with or without an operand that the branches are compared with. -/
  | case (location : Location) (operand? : Option Expr) (branches : List Branch)
    (otherwise? : Option Expr)
  | list (list : InList)
  | branch (branch : Branch)

/-- The list of an `IN`. -/
structure InList where
  location : Location
  values : List Expr

/-- A `WHEN` branch. -/
structure Branch where
  location : Location
  condition : Expr
  result : Expr

end

instance : Inhabited Expr := ⟨.literal default default⟩

instance : Inhabited InList := ⟨⟨default, []⟩⟩

instance : Inhabited Branch := ⟨⟨default, default, default⟩⟩

/-- The list of these values, of which there has to be one. -/
def InList.of (values : List Expr) : Except Violation InList :=
  if values.isEmpty then .error .emptyInList else .ok ⟨.unknown, values⟩

namespace Expr

def ofLiteral (value : Literal) : Expr := .literal .unknown value

def ofColumn (name : Name) : Expr := .column .unknown name

/-- The field of a struct, whose name is not empty. -/
def fieldOf (base : Expr) (name : String) : Except Violation Expr :=
  if name = "" then .error .emptyFieldName else .ok (.unary .unknown (.field name) base)

def negation (e : Expr) : Expr := .unary .unknown .not e

def isLiteral : Expr → Bool
  | literal .. => true
  | _ => false

def location : Expr → Location
  | literal l _ | column l _ | unary l _ _ | binary l _ _ _ | between l _ _ _ | isIn l _ _
  | call l _ _ | case l _ _ _ => l
  | list l => l.location
  | branch b => b.location

def withLocation (l : Location) : Expr → Expr
  | literal _ v => literal l v
  | column _ n => column l n
  | unary _ op e => unary l op e
  | binary _ op a b => binary l op a b
  | between _ v a b => between l v a b
  | isIn _ v xs => isIn l v xs
  | call _ f xs => call l f xs
  | case _ o bs e => case l o bs e
  | list xs => list { xs with location := l }
  | branch b => branch { b with location := l }

end Expr

end SqlTree
