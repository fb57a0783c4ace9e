import SqlTree.Feed
import SqlTree.Location
import SqlTree.SqlType
import SqlTree.Symbol

/-!
# Table elements

The declaration of a column: where in a record it is read from, its name, which is not empty, and
its type.
-/

namespace SqlTree

/-- A declared column. -/
structure TableElement where
  location : Location
  role : Namespace
  name : String
  type : SqlType
deriving Inhabited

namespace TableElement

/-- The checked declaration. -/
def of (role : Namespace) (name : String) (type : SqlType) : Except Violation TableElement :=
  if name = "" then .error .emptyColumnName else .ok ⟨.unknown, role, name, type⟩

def Valid (e : TableElement) : Prop := e.name ≠ "" ∧ e.type.Valid

def text (e : TableElement) : String :=
  e.name ++ " " ++ e.type.text ++ match e.role with
    | .value => ""
    | .key => " KEY"
    | .header => " HEADER"

def same (a b : TableElement) : Bool := a.role == b.role && a.name == b.name && a.type == b.type

instance : BEq TableElement := ⟨same⟩

def feed (e : TableElement) : Feed :=
  .number e.role.ctorIdx :: .text e.name :: e.type.feed

/-- The declarations in brackets. -/
def listText (es : List TableElement) : String := "(" ++ ", ".intercalate (es.map text) ++ ")"

/-- The first declaration of the name. -/
def find? (es : List TableElement) (name : String) : Option TableElement :=
  es.find? (·.name == name)

end TableElement

end SqlTree
