import Std.Data.HashMap
import SqlTree.Grouping

/-!
# Grouping sets

The sets of columns that a grouping clause stands for. A clause of several elements stands for the
unions of one set from each, at most `GroupBy.limit` of them. Of equal sets only the first is kept;
the order of columns in a set matters for that no more than locations do.
-/

namespace SqlTree

namespace GroupingSet

/-- Do the sets have the same columns? -/
def same (a b : GroupingSet) : Bool := a.length == b.length && a.all fun c => b.contains c

/-- A hash that the order of the columns does not change. -/
def hash (columnHash : Expr → UInt64) (set : GroupingSet) : UInt64 :=
  set.foldl (fun h c => h + columnHash c) 0

/-- The sets met so far, in the order in which they were met, and by their hash the places at which
they are kept. -/
structure Seen where
  buckets : Std.HashMap UInt64 (List Nat)
  kept : Array GroupingSet

/-- Is a set like this one kept at one of the places? -/
def Seen.keepsAt (seen : Seen) (places : List Nat) (set : GroupingSet) : Bool :=
  places.any fun place => seen.kept[place]?.any (·.same set)

/-- Keeps the set, unless one like it was met before. -/
def Seen.add (columnHash : Expr → UInt64) (seen : Seen) (set : GroupingSet) : Seen :=
  let h := hash columnHash set
  let bucket := seen.buckets.getD h []
  if seen.keepsAt bucket set then seen
  else ⟨seen.buckets.insert h (seen.kept.size :: bucket), seen.kept.push set⟩

/-- The sets without those that equal an earlier one; only sets of equal hash are compared. -/
def dedupBy (columnHash : Expr → UInt64) (sets : List GroupingSet) : List GroupingSet :=
  (sets.foldl (Seen.add columnHash) ⟨∅, #[]⟩).kept.toList

/-- The sets without those that equal an earlier one. -/
def dedup (sets : List GroupingSet) : List GroupingSet := dedupBy (fun c => c.feed.hash) sets

/-- The set and what becomes of it as the columns are added one by one. -/
def growing (set : GroupingSet) : List Expr → List GroupingSet
  | [] => [set]
  | c :: cs => set :: growing (set.insert c) cs

/-- All choices among the columns, counting in binary with the first column as the lowest digit. -/
def choices (columns : List Expr) : List GroupingSet :=
  columns.foldl (fun sets c => sets ++ sets.map (· ++ [c])) [[]]

end GroupingSet

/-- The sets that an element stands for. -/
def GroupingElement.groupingSets : GroupingElement → Except Violation (List GroupingSet)
  | simple _ columns => .ok [GroupingSet.of columns]
  | rollup _ columns => .ok (GroupingSet.dedup (GroupingSet.growing [] columns).reverse)
  | cube _ columns =>
    (cubeColumns columns).map fun columns => GroupingSet.choices (GroupingSet.of columns)
  | sets _ ss => .ok (GroupingSet.dedup (ss.map GroupingSet.of))

namespace GroupBy

/-- The most sets that a clause may stand for. -/
def limit : Nat := 65536

/-- Every set so far united with every set of one more element. -/
def combine (sets more : List GroupingSet) : Except Violation (List GroupingSet) :=
  if limit < sets.length * more.length then .error .tooManyGroupingSets
  else .ok (GroupingSet.dedup (sets.flatMap fun a => more.map a.union))

/-- Combines the elements from left to right. -/
def combineAll (sets : List GroupingSet) :
    List GroupingElement → Except Violation (List GroupingSet)
  | [] => .ok sets
  | element :: elements => do
    combineAll (← combine sets (← element.groupingSets)) elements

/-- The sets that the clause stands for. -/
def groupingSets (g : GroupBy) : Except Violation (List GroupingSet) := combineAll [[]] g.elements

end GroupBy

end SqlTree
