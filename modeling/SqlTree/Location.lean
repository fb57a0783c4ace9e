/-!
# Locations

Where a node stands in its source text. A location is a remark about a node and no part of what the
node means, so any two locations count as equal.
-/

namespace SqlTree

/-- A line and a column of a source text. -/
structure Position where
  line : UInt64
  column : UInt64
deriving DecidableEq, Repr, Inhabited

namespace Position

def text (p : Position) : String :=
  "line " ++ toString p.line ++ ", column " ++ toString p.column

/-- By line, then by column. -/
def order (p q : Position) : Ordering :=
  (compare p.line q.line).then (compare p.column q.column)

end Position

/-- The position of a node, if it is known. -/
structure Location where
  position? : Option Position
deriving Repr, Inhabited

namespace Location

def unknown : Location := ⟨none⟩

def of (line column : UInt64) : Location := ⟨some ⟨line, column⟩⟩

/-- Locations never tell two nodes apart. -/
instance : BEq Location := ⟨fun _ _ => true⟩

def text (l : Location) : String :=
  match l.position? with
  | some p => p.text
  | none => "unknown location"

end Location

end SqlTree
