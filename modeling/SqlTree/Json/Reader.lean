import SqlTree.Json
import SqlTree.Text.Hex

/-!
# Reading JSON

The value at the head of a text, and the text after it. A fault in the text leaves `broken` in its
place and nothing after it.
-/

namespace SqlTree.Json.Reader

def isBlank (c : Char) : Bool := c == ' ' || c == '\n' || c == '\t' || c == '\r'

def skipBlanks (cs : List Char) : List Char := cs.dropWhile isBlank

/-! ## Strings -/

/-- The character of a one-letter escape. -/
def escape? (c : Char) : Option Char :=
  match c with
  | '"' => some '"'
  | '\\' => some '\\'
  | '/' => some '/'
  | 'b' => some '\x08'
  | 'f' => some '\x0c'
  | 'n' => some '\n'
  | 'r' => some '\r'
  | 't' => some '\t'
  | _ => none

/-- The rest of a string after its opening quote: the code points that its characters and escapes
name, and what follows the closing quote. -/
def codes : List Char → Option (List Nat × List Char)
  | [] => none
  | '"' :: cs => some ([], cs)
  | '\\' :: 'u' :: a :: b :: c :: d :: cs => do
    let code ← Text.hexValue? [a, b, c, d]
    let (rest, cs) ← codes cs
    return (code :: rest, cs)
  | '\\' :: e :: cs => do
    let c ← escape? e
    let (rest, cs) ← codes cs
    return (c.toNat :: rest, cs)
  | c :: cs =>
    if c.toNat < 0x20 ∨ c = '\\' then none
    else do
      let (rest, cs) ← codes cs
      return (c.toNat :: rest, cs)

/-- The high half of a surrogate pair. -/
def isHighHalf (code : Nat) : Bool := 0xD800 ≤ code && code < 0xDC00

/-- The low half of a surrogate pair. -/
def isLowHalf (code : Nat) : Bool := 0xDC00 ≤ code && code < 0xE000

/-- The characters that code points name, two halves of a surrogate pair being one character. A half
without its partner names none. -/
def paired : List Nat → Option (List Char)
  | [] => some []
  | high :: low :: codes =>
    if isHighHalf high && isLowHalf low then
      (paired codes).map (Char.ofNat (0x10000 + 1024 * (high - 0xD800) + (low - 0xDC00)) :: ·)
    else if isHighHalf high || isLowHalf high then none
    else (paired (low :: codes)).map (Char.ofNat high :: ·)
  | [code] => if isHighHalf code || isLowHalf code then none else some [Char.ofNat code]

/-- A string after its opening quote. -/
def word (cs : List Char) : Option (JsonText × List Char) :=
  match codes cs with
  | none => none
  | some (codes, rest) =>
    match paired codes with
    | some text => some (.plain (String.ofList text), rest)
    | none => some (.unpaired, rest)

/-! ## Numbers -/

/-- A numeral without its sign: no zero stands before other digits, and digits follow a point. -/
def magnitude? (negative : Bool) (cs : List Char) : Option (Numeral × List Char) :=
  match Numeral.splitDigits cs with
  | ([], _) => none
  | ('0' :: _ :: _, _) => none
  | (whole, cs) => Numeral.readTail? negative whole 1 cs

def numeral? (cs : List Char) : Option (Numeral × List Char) :=
  match cs with
  | '-' :: cs => magnitude? true cs
  | cs => magnitude? false cs

/-! ## Values -/

mutual

/-- The value at the head of a text; `fuel` bounds the steps. -/
def value : Nat → List Char → Json × List Char
  | 0, _ => (.broken, [])
  | fuel + 1, cs =>
    match skipBlanks cs with
    | 'n' :: 'u' :: 'l' :: 'l' :: cs => (.null, cs)
    | 't' :: 'r' :: 'u' :: 'e' :: cs => (.bool true, cs)
    | 'f' :: 'a' :: 'l' :: 's' :: 'e' :: cs => (.bool false, cs)
    | '"' :: cs =>
      match word cs with
      | some (s, cs) => (.string s, cs)
      | none => (.broken, [])
    | '[' :: cs =>
      match skipBlanks cs with
      | ']' :: cs => (.array [], cs)
      | cs =>
        let (items, cs) := items fuel cs
        (.array items, cs)
    | '{' :: cs =>
      match skipBlanks cs with
      | '}' :: cs => (.object [], cs)
      | cs =>
        let (members, cs) := members fuel cs
        (.object members, cs)
    | cs =>
      match numeral? cs with
      | some (n, cs) => (.number n, cs)
      | none => (.broken, [])

/-- One item of an array and those after it, to the closing bracket. -/
def items : Nat → List Char → List Json × List Char
  | 0, _ => ([.broken], [])
  | fuel + 1, cs =>
    let (item, cs) := value fuel cs
    match skipBlanks cs with
    | ',' :: cs =>
      let (rest, cs) := items fuel cs
      (item :: rest, cs)
    | ']' :: cs => ([item], cs)
    | _ => ([item, .broken], [])

/-- One member of an object and those after it, to the closing brace. -/
def members : Nat → List Char → List (JsonText × Json) × List Char
  | 0, _ => ([("", .broken)], [])
  | fuel + 1, cs =>
    match skipBlanks cs with
    | '"' :: cs =>
      match word cs with
      | none => ([("", .broken)], [])
      | some (name, cs) =>
        match skipBlanks cs with
        | ':' :: cs =>
          let (member, cs) := value fuel cs
          match skipBlanks cs with
          | ',' :: cs =>
            let (rest, cs) := members fuel cs
            ((name, member) :: rest, cs)
          | '}' :: cs => ([(name, member)], cs)
          | _ => ([(name, member), ("", .broken)], [])
        | _ => ([(name, .broken)], [])
    | _ => ([("", .broken)], [])

end

end SqlTree.Json.Reader

namespace SqlTree.Json

/-- The value at the head of a text, and the text after it. -/
def read (text : String) : Json × List Char :=
  let cs := text.toList
  Reader.value (2 * cs.length + 2) cs

end SqlTree.Json
