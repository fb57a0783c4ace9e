/-!
# Feeds

What a value contributes to a hash: a sequence of numbers and texts that any hash function may
consume. Values that count as equal have equal feeds, whatever the hash function is.
-/

namespace SqlTree

/-- One item of a feed. -/
inductive Atom where
  | number (n : Nat)
  | text (s : String)
deriving DecidableEq, Repr

/-- The items a value contributes, in order. -/
abbrev Feed := List Atom

namespace Feed

def ofBool (b : Bool) : Feed := [.number b.toNat]

/-- An optional part: its absence or presence, then the part. -/
def ofOption {α : Type} (feed : α → Feed) : Option α → Feed
  | none => [.number 0]
  | some a => .number 1 :: feed a

/-- A list: its length, then its members. -/
def ofList {α : Type} (feed : α → Feed) (xs : List α) : Feed :=
  .number xs.length :: xs.flatMap feed

/-- The hash of a feed that this library uses in its own tables. -/
def hash (feed : Feed) : UInt64 :=
  feed.foldl (fun h atom => mixHash h (match atom with
    | .number n => UInt64.ofNat n
    | .text s => s.hash)) 7

end Feed

end SqlTree
