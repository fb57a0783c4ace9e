/-!
# Symbols

The closed sets of words and signs that nodes carry: operators, signs, kinds of joins and of
connectors, the places a column is read from. Each has a `name`, by which it is encoded, and most
have a `text`, by which it is written in a statement.
-/

namespace SqlTree

/-- The operators of arithmetic. -/
inductive ArithmeticOperator where
  | add | subtract | multiply | divide | modulus
deriving DecidableEq, Repr, Inhabited

namespace ArithmeticOperator

def all : List ArithmeticOperator := [add, subtract, multiply, divide, modulus]

def name : ArithmeticOperator → String
  | add => "Add"
  | subtract => "Subtract"
  | multiply => "Multiply"
  | divide => "Divide"
  | modulus => "Modulus"

def text : ArithmeticOperator → String
  | add => "+"
  | subtract => "-"
  | multiply => "*"
  | divide => "/"
  | modulus => "%"

end ArithmeticOperator

/-- The sign before an operand. -/
inductive Sign where
  | plus | minus
deriving DecidableEq, Repr, Inhabited

namespace Sign

def all : List Sign := [plus, minus]

def name : Sign → String
  | plus => "Plus"
  | minus => "Minus"

def text : Sign → String
  | plus => "+"
  | minus => "-"

end Sign

/-- The operators of comparison. -/
inductive ComparisonOperator where
  | equal | notEqual | lessThan | lessThanOrEqual | greaterThan | greaterThanOrEqual
  | isDistinctFrom
deriving DecidableEq, Repr, Inhabited

namespace ComparisonOperator

def all : List ComparisonOperator :=
  [equal, notEqual, lessThan, lessThanOrEqual, greaterThan, greaterThanOrEqual, isDistinctFrom]

def name : ComparisonOperator → String
  | equal => "Equal"
  | notEqual => "NotEqual"
  | lessThan => "LessThan"
  | lessThanOrEqual => "LessThanOrEqual"
  | greaterThan => "GreaterThan"
  | greaterThanOrEqual => "GreaterThanOrEqual"
  | isDistinctFrom => "IsDistinctFrom"

def text : ComparisonOperator → String
  | equal => "="
  | notEqual => "<>"
  | lessThan => "<"
  | lessThanOrEqual => "<="
  | greaterThan => ">"
  | greaterThanOrEqual => ">="
  | isDistinctFrom => "IS DISTINCT FROM"

/-- The operator that holds when the operands change places. -/
def flip : ComparisonOperator → ComparisonOperator
  | lessThan => greaterThan
  | lessThanOrEqual => greaterThanOrEqual
  | greaterThan => lessThan
  | greaterThanOrEqual => lessThanOrEqual
  | op => op

@[simp]
theorem flip_flip (op : ComparisonOperator) : op.flip.flip = op := by cases op <;> rfl

end ComparisonOperator

/-- The operators that join conditions. -/
inductive LogicalOperator where
  | and | or
deriving DecidableEq, Repr, Inhabited

namespace LogicalOperator

def all : List LogicalOperator := [and, or]

def name : LogicalOperator → String
  | and => "And"
  | or => "Or"

def text : LogicalOperator → String
  | and => "AND"
  | or => "OR"

end LogicalOperator

/-- How unmatched rows of a join are treated. -/
inductive JoinType where
  | inner | left | outer
deriving DecidableEq, Repr, Inhabited

namespace JoinType

def all : List JoinType := [inner, left, outer]

def name : JoinType → String
  | inner => "Inner"
  | left => "Left"
  | outer => "Outer"

def text : JoinType → String
  | inner => "INNER"
  | left => "LEFT"
  | outer => "FULL OUTER"

end JoinType

/-- Whether a connector brings data in or carries it out. -/
inductive ConnectorType where
  | source | sink
deriving DecidableEq, Repr, Inhabited

namespace ConnectorType

def all : List ConnectorType := [source, sink]

def name : ConnectorType → String
  | source => "Source"
  | sink => "Sink"

def text : ConnectorType → String
  | source => "SOURCE"
  | sink => "SINK"

end ConnectorType

/-- The part of a record that a column is read from. -/
inductive Namespace where
  | value | key | header
deriving DecidableEq, Repr, Inhabited

namespace Namespace

def all : List Namespace := [value, key, header]

def name : Namespace → String
  | value => "Value"
  | key => "Key"
  | header => "Header"

def isKey (n : Namespace) : Bool := n = key

end Namespace

end SqlTree
