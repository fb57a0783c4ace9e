import SqlTree.Codec.Scalar
import SqlTree.Expr

/-!
# Drafts of expressions

A draft says what an expression is made of, at every depth: the kind of each node, where it stands,
and what can be asked of it, down to texts, numbers and words. No rule binds a draft. It is built
from the inside out, with the constructor of each kind, and each node is then put where it stands;
that fails where a constructor refuses what it is given. A type is its own draft.
-/

namespace SqlTree

/-! ## Types -/

mutual

/-- The type, made anew from the inside out. -/
def SqlType.build : SqlType → Except Violation SqlType
  | .decimal precision scale => SqlType.decimalOf precision scale
  | .array element => return .array (← element.build)
  | .map value => return .map (← value.build)
  | .struct fields => return .struct (← StructField.buildList fields)
  | .boolean => return .boolean
  | .integer => return .integer
  | .bigint => return .bigint
  | .double => return .double
  | .string => return .string
termination_by structural t => t

def StructField.buildList : List StructField → Except Violation (List StructField)
  | [] => return []
  | ⟨name, type⟩ :: fields => return ⟨name, ← type.build⟩ :: (← StructField.buildList fields)
termination_by structural fields => fields

end

/-! ## Expressions -/

mutual

/-- The draft of an expression. -/
inductive Expr.Draft where
  | literal (location : Location) (value : Literal)
  | qualifiedNameReference (location : Location) (name : List String)
  | arithmeticBinary (location : Location) (operator : ArithmeticOperator) (left right : Expr.Draft)
  | arithmeticUnary (location : Location) (sign : Sign) (value : Expr.Draft)
  | comparison (location : Location) (operator : ComparisonOperator) (left right : Expr.Draft)
  | logicalBinary (location : Location) (operator : LogicalOperator) (left right : Expr.Draft)
  | between (location : Location) (value min max : Expr.Draft)
  | inPredicate (location : Location) (value : Expr.Draft) (valueList : InList.Draft)
  | inList (list : InList.Draft)
  | like (location : Location) (value pattern : Expr.Draft)
  | isNull (location : Location) (value : Expr.Draft)
  | isNotNull (location : Location) (value : Expr.Draft)
  | not (location : Location) (value : Expr.Draft)
  | functionCall (location : Location) (name : List String) (arguments : List Expr.Draft)
  | cast (location : Location) (expression : Expr.Draft) (targetType : SqlType)
  | dereference (location : Location) (base : Expr.Draft) (fieldName : String)
  | subscript (location : Location) (base index : Expr.Draft)
  | simpleCase (location : Location) (operand : Expr.Draft) (whenClauses : List Branch.Draft)
    (defaultValue? : Option Expr.Draft)
  | searchedCase (location : Location) (whenClauses : List Branch.Draft)
    (defaultValue? : Option Expr.Draft)
  | whenClause (branch : Branch.Draft)

/-- The draft of an `IN` list. -/
structure InList.Draft where
  location : Location
  values : List Expr.Draft

/-- The draft of a `WHEN` branch. -/
structure Branch.Draft where
  location : Location
  operand : Expr.Draft
  result : Expr.Draft

end

mutual

/-- What can be asked of the expression and of all that is in it. -/
def Expr.draft : Expr → Expr.Draft
  | .literal l v => .literal l v
  | .column l n => .qualifiedNameReference l n.parts
  | .unary l (.sign s) e => .arithmeticUnary l s e.draft
  | .unary l .isNull e => .isNull l e.draft
  | .unary l .isNotNull e => .isNotNull l e.draft
  | .unary l .not e => .not l e.draft
  | .unary l (.cast t) e => .cast l e.draft t
  | .unary l (.field n) e => .dereference l e.draft n
  | .binary l (.arithmetic op) a b => .arithmeticBinary l op a.draft b.draft
  | .binary l (.comparison op) a b => .comparison l op a.draft b.draft
  | .binary l (.logical op) a b => .logicalBinary l op a.draft b.draft
  | .binary l .like a b => .like l a.draft b.draft
  | .binary l .subscript a b => .subscript l a.draft b.draft
  | .between l v a b => .between l v.draft a.draft b.draft
  | .isIn l v xs => .inPredicate l v.draft xs.draft
  | .call l f xs => .functionCall l f.parts (Expr.draftList xs)
  | .case l (some o) bs e? => .simpleCase l o.draft (Branch.draftList bs) (Expr.draftOption e?)
  | .case l none bs e? => .searchedCase l (Branch.draftList bs) (Expr.draftOption e?)
  | .list xs => .inList xs.draft
  | .branch b => .whenClause b.draft
termination_by structural e => e

def InList.draft : InList → InList.Draft
  | ⟨l, xs⟩ => ⟨l, Expr.draftList xs⟩
termination_by structural xs => xs

def Branch.draft : Branch → Branch.Draft
  | ⟨l, c, r⟩ => ⟨l, c.draft, r.draft⟩
termination_by structural b => b

def Expr.draftOption : Option Expr → Option Expr.Draft
  | none => none
  | some e => some e.draft
termination_by structural e? => e?

def Expr.draftList : List Expr → List Expr.Draft
  | [] => []
  | e :: es => e.draft :: Expr.draftList es
termination_by structural es => es

def Branch.draftList : List Branch → List Branch.Draft
  | [] => []
  | b :: bs => b.draft :: Branch.draftList bs
termination_by structural bs => bs

end

mutual

def Expr.Draft.build : Expr.Draft → Except Violation Expr
  | .literal l v => return (Expr.ofLiteral (← v.check)).withLocation l
  | .qualifiedNameReference l parts => return (Expr.ofColumn (← Name.of parts)).withLocation l
  | .arithmeticBinary l op a b =>
    return (Expr.binary .unknown (.arithmetic op) (← a.build) (← b.build)).withLocation l
  | .arithmeticUnary l s e => return (Expr.unary .unknown (.sign s) (← e.build)).withLocation l
  | .comparison l op a b =>
    return (Expr.binary .unknown (.comparison op) (← a.build) (← b.build)).withLocation l
  | .logicalBinary l op a b =>
    return (Expr.binary .unknown (.logical op) (← a.build) (← b.build)).withLocation l
  | .between l v a b =>
    return (Expr.between .unknown (← v.build) (← a.build) (← b.build)).withLocation l
  | .inPredicate l v xs => return (Expr.isIn .unknown (← v.build) (← xs.build)).withLocation l
  | .inList xs => return .list (← xs.build)
  | .like l a b => return (Expr.binary .unknown .like (← a.build) (← b.build)).withLocation l
  | .isNull l e => return (Expr.unary .unknown .isNull (← e.build)).withLocation l
  | .isNotNull l e => return (Expr.unary .unknown .isNotNull (← e.build)).withLocation l
  | .not l e => return (Expr.negation (← e.build)).withLocation l
  | .functionCall l parts xs =>
    return (Expr.call .unknown (← Name.of parts) (← Expr.Draft.buildList xs)).withLocation l
  | .cast l e t => do
    let operand ← e.build
    return (Expr.unary .unknown (.cast (← t.build)) operand).withLocation l
  | .dereference l e n => return (← Expr.fieldOf (← e.build) n).withLocation l
  | .subscript l a b =>
    return (Expr.binary .unknown .subscript (← a.build) (← b.build)).withLocation l
  | .simpleCase l o bs e? =>
    return (Expr.case .unknown (some (← o.build)) (← Branch.Draft.buildList bs)
      (← Expr.Draft.buildOption e?)).withLocation l
  | .searchedCase l bs e? =>
    return (Expr.case .unknown none (← Branch.Draft.buildList bs)
      (← Expr.Draft.buildOption e?)).withLocation l
  | .whenClause b => return .branch (← b.build)
termination_by structural d => d

def InList.Draft.build : InList.Draft → Except Violation InList
  | ⟨l, xs⟩ => return { ← InList.of (← Expr.Draft.buildList xs) with location := l }
termination_by structural d => d

def Branch.Draft.build : Branch.Draft → Except Violation Branch
  | ⟨l, c, r⟩ => return { Branch.mk .unknown (← c.build) (← r.build) with location := l }
termination_by structural d => d

def Expr.Draft.buildOption : Option Expr.Draft → Except Violation (Option Expr)
  | none => return none
  | some d => return some (← d.build)
termination_by structural d => d

def Expr.Draft.buildList : List Expr.Draft → Except Violation (List Expr)
  | [] => return []
  | d :: ds => return (← d.build) :: (← Expr.Draft.buildList ds)
termination_by structural ds => ds

def Branch.Draft.buildList : List Branch.Draft → Except Violation (List Branch)
  | [] => return []
  | d :: ds => return (← d.build) :: (← Branch.Draft.buildList ds)
termination_by structural ds => ds

end

end SqlTree
