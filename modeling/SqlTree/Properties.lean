import SqlTree.Literal

/-!
# Properties

The settings of a statement: keys with literal values, in the order in which the keys were first
given. Setting a key again changes its value and not its place. Two lists of settings are the same
when they give the same keys the same values, in any order.
-/

namespace SqlTree

/-- Keys with their values. -/
structure Properties where
  entries : List (String × Literal)
deriving Inhabited

namespace Properties

/-- Gives `key` the value, at its old place if it has one and else at the end. -/
def put (key : String) (value : Literal) : List (String × Literal) → List (String × Literal)
  | [] => [(key, value)]
  | (k, v) :: rest => if k = key then (key, value) :: rest else (k, v) :: put key value rest

def empty : Properties := ⟨[]⟩

def insert (p : Properties) (key : String) (value : Literal) : Properties :=
  ⟨put key value p.entries⟩

/-- All the settings, one after the other. -/
def of (pairs : List (String × Literal)) : Properties :=
  pairs.foldl (fun p (key, value) => p.insert key value) empty

def keys (p : Properties) : List String := p.entries.map (·.1)

def get? (p : Properties) (key : String) : Option Literal := p.entries.lookup key

def contains (p : Properties) (key : String) : Bool := (p.get? key).isSome

def size (p : Properties) : Nat := p.entries.length

def isEmpty (p : Properties) : Bool := p.entries.isEmpty

/-- No key is given twice, and the values are valid. -/
def Valid (p : Properties) : Prop := p.keys.Nodup ∧ ∀ e ∈ p.entries, e.2.Valid

/-- Is the text a word that needs no quotes as a key? -/
def isWord (s : String) : Bool :=
  match s.toList with
  | [] => false
  | c :: cs => (c.isAlpha || c == '_') && cs.all fun c => c.isAlphanum || c == '_'

/-- A key as it stands in a statement. -/
def keyText (key : String) : String := if isWord key then key else Text.delimited '"' key

def entryText (entry : String × Literal) : String := keyText entry.1 ++ "=" ++ entry.2.text

/-- The settings in brackets. -/
def text (p : Properties) : String := "(" ++ ", ".intercalate (p.entries.map entryText) ++ ")"

/-- Do both give the same keys the same values? -/
def same (p q : Properties) : Bool :=
  p.size == q.size && p.entries.all fun (key, value) => q.get? key == some value

instance : BEq Properties := ⟨same⟩

/-- The settings in the order of their keys. -/
def sorted (p : Properties) : List (String × Literal) :=
  p.entries.mergeSort fun a b => (compare a.1 b.1).isLE

def feed (p : Properties) : Feed :=
  Feed.ofList (fun (key, value) => .text key :: value.feed) p.sorted

end Properties

end SqlTree
