import SqlTree.Violation

/-!
# Qualified names

A name is a list of parts joined by dots, such as `db.orders`. A proper name has at least one part
and no empty part.
-/

namespace SqlTree

/-- A qualified name. -/
structure Name where
  parts : List String
deriving DecidableEq, Repr, Inhabited

namespace Name

/-- At least one part, and no part is empty. -/
def Valid (n : Name) : Prop := n.parts ≠ [] ∧ ∀ p ∈ n.parts, p ≠ ""

/-- The name with these parts. -/
def of (parts : List String) : Except Violation Name :=
  if parts = [] then .error .emptyName
  else if parts.any (· == "") then .error (.emptyNamePart parts)
  else .ok ⟨parts⟩

/-- The name with a single part. -/
def simple (part : String) : Except Violation Name := of [part]

/-- The last part. -/
def suffix (n : Name) : String := n.parts.getLast?.getD ""

/-- What stands before the last part, if the name has more than one. -/
def qualifier? (n : Name) : Option Name :=
  if n.parts.length ≤ 1 then none else some ⟨n.parts.dropLast⟩

def text (n : Name) : String := ".".intercalate n.parts

/-- Part by part, each by its code points; a name comes after its own beginnings. -/
def order (a b : Name) : Ordering := orderParts a.parts b.parts
where
  orderParts : List String → List String → Ordering
    | [], [] => .eq
    | [], _ :: _ => .lt
    | _ :: _, [] => .gt
    | a :: as, b :: bs => (compare a b).then (orderParts as bs)

end Name

end SqlTree
