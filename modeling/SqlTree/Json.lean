import SqlTree.Numeral

/-!
# JSON values

A JSON document as a reader meets it. Objects keep the order of their members and members of the
same name. A text that stops being JSON yields the values up to that place and then `broken`, so
that whoever reads in order learns of a fault no earlier than of what stands before it.
-/

namespace SqlTree

/-- What stands between quotes. -/
inductive JsonText where
  | plain (s : String)
  /-- An escape names one half of a surrogate pair: well spelled, but no text. -/
  | unpaired
deriving DecidableEq, Repr

instance : Coe String JsonText := ⟨JsonText.plain⟩

/-- A JSON value. -/
inductive Json where
  | null
  | bool (b : Bool)
  | number (n : Numeral)
  | string (s : JsonText)
  | array (items : List Json)
  | object (members : List (JsonText × Json))
  /-- The document is no JSON from here on. -/
  | broken

instance : Inhabited Json := ⟨.null⟩

namespace Json

def ofString (s : String) : Json := .string s

def ofNat (n : Nat) : Json := .number (.ofNat n)

def ofInt (n : Int) : Json := .number (.ofInt n)

/-- An object of named members. -/
def record (members : List (String × Json)) : Json :=
  .object (members.map fun (name, value) => (.plain name, value))

/-- The object whose only member has the tag as its name. -/
def tagged (tag : String) (payload : Json) : Json := record [(tag, payload)]

/-- The optional value, or `null`. -/
def ofOption {α : Type} (encode : α → Json) : Option α → Json
  | none => null
  | some a => encode a

def ofList {α : Type} (encode : α → Json) (xs : List α) : Json := .array (xs.map encode)

mutual

/-- Is the value JSON to its end? -/
def isWhole : Json → Bool
  | broken => false
  | array items => allWhole items
  | object members => membersWhole members
  | _ => true
termination_by structural j => j

def allWhole : List Json → Bool
  | [] => true
  | j :: js => j.isWhole && allWhole js
termination_by structural js => js

def membersWhole : List (JsonText × Json) → Bool
  | [] => true
  | (_, j) :: ms => j.isWhole && membersWhole ms
termination_by structural ms => ms

end

end Json

end SqlTree
