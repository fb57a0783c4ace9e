import SqlTree.Expr

/-!
# Written expressions

The text of an expression in a statement. Operators stand in brackets of their own, so the text
shows what belongs together without any order of precedence.
-/

namespace SqlTree

/-- A unary operator around the text of its operand. -/
def UnaryOperator.around (op : UnaryOperator) (operand : String) : String :=
  match op with
  | sign s => s.text ++ operand
  | isNull => "(" ++ operand ++ " IS NULL)"
  | isNotNull => "(" ++ operand ++ " IS NOT NULL)"
  | not => "(NOT " ++ operand ++ ")"
  | cast type => "CAST(" ++ operand ++ " AS " ++ type.text ++ ")"
  | field name => operand ++ "->" ++ name

/-- A binary operator between the texts of its operands. -/
def BinaryOperator.between (op : BinaryOperator) (left right : String) : String :=
  match op with
  | arithmetic op => "(" ++ left ++ " " ++ op.text ++ " " ++ right ++ ")"
  | comparison op => "(" ++ left ++ " " ++ op.text ++ " " ++ right ++ ")"
  | logical op => "(" ++ left ++ " " ++ op.text ++ " " ++ right ++ ")"
  | like => "(" ++ left ++ " LIKE " ++ right ++ ")"
  | subscript => left ++ "[" ++ right ++ "]"

mutual

def Expr.text : Expr → String
  | .literal _ value => value.text
  | .column _ name => name.text
  | .unary _ op e => op.around e.text
  | .binary _ op a b => op.between a.text b.text
  | .between _ v a b => "(" ++ v.text ++ " BETWEEN " ++ a.text ++ " AND " ++ b.text ++ ")"
  | .isIn _ v xs => "(" ++ v.text ++ " IN " ++ xs.text ++ ")"
  | .call _ f xs => f.text ++ "(" ++ ", ".intercalate (Expr.texts xs) ++ ")"
  | .case _ o bs e =>
    "(CASE" ++ Expr.optionText " " o ++ Branch.texts bs ++ Expr.optionText " ELSE " e ++ " END)"
  | .list xs => xs.text
  | .branch b => b.text
termination_by structural e => e

def InList.text : InList → String
  | ⟨_, xs⟩ => "(" ++ ", ".intercalate (Expr.texts xs) ++ ")"
termination_by structural xs => xs

def Branch.text : Branch → String
  | ⟨_, c, r⟩ => "WHEN " ++ c.text ++ " THEN " ++ r.text
termination_by structural b => b

/-- An optional expression after some words. -/
def Expr.optionText (words : String) : Option Expr → String
  | none => ""
  | some e => words ++ e.text
termination_by structural e => e

def Expr.texts : List Expr → List String
  | [] => []
  | e :: es => e.text :: Expr.texts es
termination_by structural es => es

def Branch.texts : List Branch → String
  | [] => ""
  | b :: bs => " " ++ b.text ++ Branch.texts bs
termination_by structural bs => bs

end

end SqlTree
