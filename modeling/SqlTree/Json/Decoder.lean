import SqlTree.Double.Text
import SqlTree.Json.Reader
import SqlTree.Violation

/-!
# Decoding JSON

A decoder takes the value of a type out of a JSON value, or refuses it: for its shape, or because
the decoded value would break a rule of well-formedness. It looks at a document from front to back,
so the first fault in the document is the one that is reported. It may open only so many brackets
within each other.
-/

namespace SqlTree

/-- Why a document was refused. -/
inductive DecodeError where
  | shape
  | invalid (cause : Violation)
deriving DecidableEq, Repr

/-- Takes the number of brackets that may still be opened, and the document. -/
abbrev Decoder (α : Type) := Nat → Json → Except DecodeError α

namespace Decoder

variable {α β : Type}

/-- How many brackets a document may open within each other. -/
def nesting : Nat := 127

def fail : Decoder α := fun _ _ => .error .shape

def map (f : α → β) (d : Decoder α) : Decoder β := fun levels j => (d levels j).map f

/-- The decoded value, if it passes a check. -/
def checked (check : α → Except Violation β) (d : Decoder α) : Decoder β := fun levels j => do
  match check (← d levels j) with
  | .ok b => .ok b
  | .error v => .error (.invalid v)

/-! ## Simple values -/

def bool : Decoder Bool
  | _, .bool b => .ok b
  | _, _ => .error .shape

def string : Decoder String
  | _, .string (.plain s) => .ok s
  | _, _ => .error .shape

/-- A whole number of which `read` says whether it is in range. -/
def int (read : Int → Option α) : Decoder α
  | _, .number n => match n.int?.bind read with
    | some a => .ok a
    | none => .error .shape
  | _, _ => .error .shape

def uint32 : Decoder UInt32 := int fun i =>
  if 0 ≤ i ∧ i.toNat < UInt32.size then some (UInt32.ofNat i.toNat) else none

def uint64 : Decoder UInt64 := int fun i =>
  if 0 ≤ i ∧ i.toNat < UInt64.size then some (UInt64.ofNat i.toNat) else none

def int32 : Decoder Int32 := int fun i =>
  if Int32.minValue.toInt ≤ i ∧ i ≤ Int32.maxValue.toInt then some (Int32.ofInt i) else none

def int64 : Decoder Int64 := int fun i =>
  if Int64.minValue.toInt ≤ i ∧ i ≤ Int64.maxValue.toInt then some (Int64.ofInt i) else none

/-- Any number for which there is a double. -/
def double [Double.Reader] : Decoder Double
  | _, .number n => match Double.Reader.read? n with
    | some d => .ok d
    | none => .error .shape
  | _, _ => .error .shape

/-- A value or `null`. -/
def option (d : Decoder α) : Decoder (Option α)
  | _, .null => .ok none
  | levels, j => (d levels j).map some

/-! ## Lists -/

def items (d : Decoder α) (levels : Nat) : List Json → Except DecodeError (List α)
  | [] => .ok []
  | j :: js => do
    let a ← d levels j
    return a :: (← items d levels js)

def list (d : Decoder α) : Decoder (List α)
  | levels + 1, .array js => items d levels js
  | _, _ => .error .shape

/-! ## Alternatives -/

/-- What stands behind a tag: nothing, or a value. -/
inductive Payload (α : Type) where
  | unit (value : α)
  | value (decoder : Decoder α)

/-- A tag, or an object whose only member has the tag as its name. -/
def tagged (alternatives : List (String × Payload α)) : Decoder α
  | _, .string (.plain tag) =>
    match alternatives.lookup tag with
    | some (.unit a) => .ok a
    | _ => .error .shape
  | levels + 1, .object ((.plain tag, payload) :: others) => do
    let a ← match alternatives.lookup tag, payload with
      | some (.unit a), .null => .ok a
      | some (.value d), payload => d levels payload
      | _, _ => .error .shape
    if others.isEmpty then .ok a else .error .shape
  | _, _ => .error .shape

/-- A closed set of words. -/
def oneOf (all : List α) (name : α → String) : Decoder α :=
  tagged (all.map fun a => (name a, .unit a))

/-! ## Named fields -/

end Decoder

/-- Some fields of an object: their names in the order in which they are declared, what has been
read of them so far, how a member adds to it, and what they amount to in the end. -/
structure Fields (α : Type) where
  names : List String
  State : Type
  start : State
  /-- `none` if no field has the name. -/
  take : Nat → String → Json → State → Option (Except DecodeError State)
  finish : State → Except DecodeError α

namespace Fields

variable {α β : Type}

/-- A field that must be there unless `missing` stands in for it; it must not be there twice. -/
def fieldOr (missing : Option α) (name : String) (d : Decoder α) : Fields α where
  names := [name]
  State := Option α
  start := none
  take levels n j state :=
    if n = name then
      some (match state with
        | some _ => .error .shape
        | none => (d levels j).map some)
    else none
  finish state := match state.or missing with
    | some a => .ok a
    | none => .error .shape

/-- A field that must be there. -/
def field (name : String) (d : Decoder α) : Fields α := fieldOr none name d

/-- A field that may be missing or `null`. -/
def option (name : String) (d : Decoder α) : Fields (Option α) :=
  fieldOr (some none) name d.option

/-- No field at all. -/
def always (a : α) : Fields α := ⟨[], Unit, (), fun _ _ _ _ => none, fun _ => .ok a⟩

def map (f : α → β) (fs : Fields α) : Fields β where
  names := fs.names
  State := fs.State
  start := fs.start
  take := fs.take
  finish state := (fs.finish state).map f

/-- The fields of both, in any order. -/
def both (fs : Fields (α → β)) (gs : Fields α) : Fields β where
  names := fs.names ++ gs.names
  State := fs.State × gs.State
  start := (fs.start, gs.start)
  take levels n j state :=
    match fs.take levels n j state.1 with
    | some r => some (r.map fun s => (s, state.2))
    | none => (gs.take levels n j state.2).map fun r => r.map fun s => (state.1, s)
  finish state := return (← fs.finish state.1) (← gs.finish state.2)

instance : Functor Fields where
  map := map

instance : Seq Fields where
  seq fs gs := both fs (gs ())

/-- The decoded fields, if they pass a check. -/
def checked (check : α → Except Violation β) (fs : Fields α) : Fields β where
  names := fs.names
  State := fs.State
  start := fs.start
  take := fs.take
  finish state := do
    match check (← fs.finish state) with
    | .ok b => .ok b
    | .error v => .error (.invalid v)

/-- Members that are no fields are passed over, if they are JSON at all. -/
def takeAll (fs : Fields α) (levels : Nat) :
    List (JsonText × Json) → fs.State → Except DecodeError fs.State
  | [], state => .ok state
  | (.unpaired, _) :: _, _ => .error .shape
  | (.plain name, j) :: members, state =>
    match fs.take levels name j state with
    | some r => do fs.takeAll levels members (← r)
    | none => if j.isWhole then fs.takeAll levels members state else .error .shape

/-- The members that the items of an array stand for: the values of the fields, in the order in
which the fields are declared. -/
def placed (fs : Fields α) (items : List Json) : List (JsonText × Json) :=
  (fs.names.zip items).map fun (name, item) => (.plain name, item)

/-- An object with these fields, or the array of their values, where none may be missing. -/
def decoder (fs : Fields α) : Decoder α
  | levels + 1, .object members => do fs.finish (← fs.takeAll levels members fs.start)
  | levels + 1, .array items => do
    let state ← fs.takeAll levels (fs.placed items) fs.start
    if items.length = fs.names.length then fs.finish state else .error .shape
  | _, _ => .error .shape

end Fields

namespace Decoder

variable {α : Type}

/-- Decodes a text that is one document and nothing more. -/
def decode (d : Decoder α) (text : String) : Except DecodeError α :=
  let (j, rest) := Json.read text
  match d nesting j with
  | .ok a => if Json.Reader.skipBlanks rest = [] then .ok a else .error .shape
  | .error e => .error e

end Decoder

end SqlTree
