import SqlTree.Double.Text
import SqlTree.Text.Hex
import SqlTree.Toml

/-!
# Reading TOML

A document is a sequence of lines: headers, keys with values, comments and empty lines. Every reader
takes something from the head of a text and gives the text after it, or fails. Brackets and braces
may be open within each other, and parts of a key be joined, only up to a limit.
-/

namespace SqlTree.Toml

/-- Takes a value from the head of a text. -/
abbrev Reader (α : Type) := List Char → Option (α × List Char)

namespace Reader

def isBlank (c : Char) : Bool := c == ' ' || c == '\t'

def skipBlanks (cs : List Char) : List Char := cs.dropWhile isBlank

/-- Control characters other than the tab may stand nowhere but at the end of a line. -/
def isControl (c : Char) : Bool := (c.toNat < 0x20 && c != '\t') || c.toNat == 0x7F

/-- The text after the end of a line. -/
def lineEnd? : List Char → Option (List Char)
  | '\n' :: cs => some cs
  | '\r' :: '\n' :: cs => some cs
  | _ => none

/-- The text after a comment, which goes on to the end of the line. -/
def skipComment (cs : List Char) : List Char :=
  match cs with
  | '#' :: cs => cs.dropWhile fun c => !isControl c
  | cs => cs

/-- The text after the blanks, comments and line ends at its head. -/
def skipLines : Nat → List Char → List Char
  | 0, cs => cs
  | fuel + 1, cs =>
    let rest := skipComment (skipBlanks cs)
    match lineEnd? rest with
    | some rest => skipLines fuel rest
    | none => rest

/-- The text after the line ends and blanks that follow a backslash at the end of a line. -/
def skipFolded : List Char → List Char
  | '\n' :: cs => skipFolded cs
  | '\r' :: '\n' :: cs => skipFolded cs
  | c :: cs => if isBlank c then skipFolded cs else c :: cs
  | [] => []

/-! ## Strings -/

/-- The character that hexadecimal digits name, if they name one. -/
def scalar? (digits : List Char) : Option Char := do
  let n ← Text.hexValue? digits
  if n < 0xD800 ∨ (0xE000 ≤ n ∧ n < 0x110000) then some (Char.ofNat n) else none

/-- The character of a one-letter escape. -/
def escape? (c : Char) : Option Char :=
  match c with
  | 'b' => some '\x08'
  | 'e' => some '\x1b'
  | 't' => some '\t'
  | 'n' => some '\n'
  | 'f' => some '\x0c'
  | 'r' => some '\r'
  | '"' => some '"'
  | '\\' => some '\\'
  | _ => none

/-- An escape after its backslash. -/
def escape : Reader Char
  | 'x' :: a :: b :: cs => (scalar? [a, b]).map (·, cs)
  | 'u' :: a :: b :: c :: d :: cs => (scalar? [a, b, c, d]).map (·, cs)
  | 'U' :: a :: b :: c :: d :: e :: f :: g :: h :: cs =>
    (scalar? [a, b, c, d, e, f, g, h]).map (·, cs)
  | c :: cs => (escape? c).map (·, cs)
  | [] => none

/-- A string in double quotes, after the first of them. -/
def basic : Nat → Reader (List Char)
  | 0, _ => none
  | fuel + 1, cs =>
    match cs with
    | '"' :: cs => some ([], cs)
    | '\\' :: cs => do
      let (c, cs) ← escape cs
      let (text, cs) ← basic fuel cs
      return (c :: text, cs)
    | c :: cs => do
      if isControl c then none
      let (text, cs) ← basic fuel cs
      return (c :: text, cs)
    | [] => none

/-- A string in single quotes, after the first of them. -/
def literal (cs : List Char) : Option (List Char × List Char) :=
  match cs.dropWhile fun c => c != '\'' && !isControl c with
  | '\'' :: rest => some (cs.takeWhile fun c => c != '\'' && !isControl c, rest)
  | _ => none

/-- Up to five quotes at the head of a text, if three of them close a string: the others, and what
follows. -/
def closing? (quote : Char) (cs : List Char) : Option (List Char × List Char) :=
  let quotes := (cs.takeWhile (· == quote)).take 5
  if 3 ≤ quotes.length then some (quotes.drop 3, cs.drop quotes.length) else none

/-- May a string of several lines go on with the first character of the text? Line ends stand for
themselves there. -/
def goesOn (cs : List Char) : Bool :=
  match cs with
  | c :: _ => !isControl c || (lineEnd? cs).isSome
  | [] => false

/-- A string of several lines in triple double quotes, after the first of them. -/
def multiBasic : Nat → Reader (List Char)
  | 0, _ => none
  | fuel + 1, cs =>
    match closing? '"' cs with
    | some (quotes, rest) => some (quotes, rest)
    | none =>
      match cs with
      | '\\' :: cs =>
        match lineEnd? (skipBlanks cs) with
        | some rest => multiBasic fuel (skipFolded rest)
        | none => do
          let (c, cs) ← escape cs
          let (text, cs) ← multiBasic fuel cs
          return (c :: text, cs)
      | c :: rest => do
        if !goesOn cs then none
        let (text, cs) ← multiBasic fuel rest
        return (c :: text, cs)
      | [] => none

/-- A string of several lines in triple single quotes, after the first of them. -/
def multiLiteral : Nat → Reader (List Char)
  | 0, _ => none
  | fuel + 1, cs =>
    match closing? '\'' cs with
    | some (quotes, rest) => some (quotes, rest)
    | none =>
      match cs with
      | c :: rest => do
        if !goesOn cs then none
        let (text, cs) ← multiLiteral fuel rest
        return (c :: text, cs)
      | [] => none

/-- The text without a line end at its head. -/
def dropLineEnd (cs : List Char) : List Char := (lineEnd? cs).getD cs

/-- A string of any kind. -/
def string : Reader String
  | '"' :: '"' :: '"' :: cs =>
    (multiBasic (cs.length + 1) (dropLineEnd cs)).map fun (t, cs) => (.ofList t, cs)
  | '\'' :: '\'' :: '\'' :: cs =>
    (multiLiteral (cs.length + 1) (dropLineEnd cs)).map fun (t, cs) => (.ofList t, cs)
  | '"' :: cs => (basic (cs.length + 1) cs).map fun (t, cs) => (.ofList t, cs)
  | '\'' :: cs => (literal cs).map fun (t, cs) => (.ofList t, cs)
  | _ => none

/-! ## Keys -/

def isBare (c : Char) : Bool := c.isAlphanum || c == '_' || c == '-'

/-- A bare key, or a key in quotes on one line. -/
def key : Reader String
  | '"' :: cs => (basic (cs.length + 1) cs).map fun (t, cs) => (.ofList t, cs)
  | '\'' :: cs => (literal cs).map fun (t, cs) => (.ofList t, cs)
  | cs =>
    match cs.takeWhile isBare with
    | [] => none
    | word => some (.ofList word, cs.dropWhile isBare)

/-- The most brackets that may be open within each other, and the most keys that dots may join. -/
def limit : Nat := 80

/-- At most so many keys joined by dots, with blanks around them. -/
def keysUpTo : Nat → Reader (List String)
  | 0, _ => none
  | count + 1, cs => do
    let (first, cs) ← key (skipBlanks cs)
    match skipBlanks cs with
    | '.' :: cs => do
      let (rest, cs) ← keysUpTo count cs
      return (first :: rest, cs)
    | cs => return ([first], cs)

/-- Keys joined by dots. -/
def keys : Reader (List String) := keysUpTo limit

/-! ## Words: numbers, truth values, moments -/

/-- The digits of a text in which single underscores may stand between digits. -/
def digits? (isDigit : Char → Bool) : List Char → Option (List Char)
  | [] => none
  | [c] => if isDigit c then some [c] else none
  | c :: '_' :: cs => if isDigit c then (digits? isDigit cs).map (c :: ·) else none
  | c :: cs => if isDigit c then (digits? isDigit cs).map (c :: ·) else none

/-- The value of digits of a base. -/
def ofDigits (base : Nat) (digits : List Char) : Nat :=
  digits.foldl (fun n c => base * n + (Text.hexDigit? c).getD 0) 0

/-- Digits without a zero before others. -/
def plainDigits? (cs : List Char) : Option (List Char) :=
  match digits? Char.isDigit cs with
  | some ('0' :: _ :: _) => none
  | digits => digits

/-- The text without a sign at its head, and whether it was a minus. -/
def splitSign : List Char → Bool × List Char
  | '-' :: cs => (true, cs)
  | '+' :: cs => (false, cs)
  | cs => (false, cs)

/-- A whole number, in one of four bases. -/
def integer? (word : List Char) : Option Int :=
  match word with
  | '0' :: 'x' :: cs =>
    (digits? (fun c => (Text.hexDigit? c).isSome) cs).map fun ds => (ofDigits 16 ds : Int)
  | '0' :: 'o' :: cs =>
    (digits? (fun c => '0' ≤ c && c ≤ '7') cs).map fun ds => (ofDigits 8 ds : Int)
  | '0' :: 'b' :: cs =>
    (digits? (fun c => c == '0' || c == '1') cs).map fun ds => (ofDigits 2 ds : Int)
  | word =>
    let (negative, cs) := splitSign word
    (plainDigits? cs).map fun ds =>
      if negative then -(ofDigits 10 ds : Int) else (ofDigits 10 ds : Int)

def isExponentMark (c : Char) : Bool := c == 'e' || c == 'E'

/-- Is the word a float? Beyond the finite doubles there are only the words for it. -/
def isFloat (word : List Char) : Bool :=
  let (_, cs) := splitSign word
  if cs == ['i', 'n', 'f'] || cs == ['n', 'a', 'n'] then true
  else
    let double? := Double.ofText? (String.ofList (word.filter (· != '_')))
    let mantissa := cs.takeWhile fun c => !isExponentMark c
    let whole := mantissa.takeWhile (· != '.')
    let fractionOk := match mantissa.dropWhile (· != '.') with
      | [] => true
      | _ :: fraction => (digits? Char.isDigit fraction).isSome
    let exponentOk := match cs.dropWhile fun c => !isExponentMark c with
      | [] => true
      | _ :: exponent => (digits? Char.isDigit (splitSign exponent).2).isSome
    (plainDigits? whole).isSome && fractionOk && exponentOk &&
      cs.any (fun c => c == '.' || isExponentMark c) && double?.any Double.isFinite

/-- Two digits. -/
def two? (a b : Char) : Option Nat :=
  if a.isDigit && b.isDigit then some (ofDigits 10 [a, b]) else none

/-- The days of a month. -/
def daysOf (year month : Nat) : Nat :=
  if month = 2 then
    if year % 4 = 0 ∧ (year % 100 ≠ 0 ∨ year % 400 = 0) then 29 else 28
  else if month = 4 ∨ month = 6 ∨ month = 9 ∨ month = 11 then 30 else 31

/-- The text after a date. -/
def skipDate? : List Char → Option (List Char)
  | a :: b :: c :: d :: '-' :: m :: m' :: '-' :: e :: e' :: cs => do
    let year := 100 * (← two? a b) + (← two? c d)
    let month ← two? m m'
    let day ← two? e e'
    if 1 ≤ month ∧ month ≤ 12 ∧ 1 ≤ day ∧ day ≤ daysOf year month then some cs else none
  | _ => none

/-- The text after the seconds of a time of day, which need not be there. -/
def skipSeconds? : List Char → Option (List Char)
  | ':' :: s :: s' :: cs => do
    if 60 < (← two? s s') then none
    match cs with
    | '.' :: cs => if cs.takeWhile Char.isDigit = [] then none else some (cs.dropWhile Char.isDigit)
    | cs => some cs
  | ':' :: _ => none
  | cs => some cs

/-- The text after a time of day. -/
def skipTime? : List Char → Option (List Char)
  | h :: h' :: ':' :: m :: m' :: cs => do
    if (← two? h h') < 24 ∧ (← two? m m') < 60 then skipSeconds? cs else none
  | _ => none

/-- Is the text a distance from universal time, or nothing? -/
def isOffset : List Char → Bool
  | [] => true
  | [c] => c == 'Z' || c == 'z'
  | [s, h, h', ':', m, m'] =>
    (s == '+' || s == '-') && match two? h h', two? m m' with
      | some hour, some minute => hour < 24 && minute < 60
      | _, _ => false
  | _ => false

/-- Is the word a date, a time of day or both? -/
def isMoment (word : List Char) : Bool :=
  match skipDate? word with
  | some [] => true
  | some (c :: cs) =>
    (c == 'T' || c == 't' || c == ' ') && match skipTime? cs with
      | some offset => isOffset offset
      | none => false
  | none => skipTime? word == some []

def isWordChar (c : Char) : Bool := isBare c || c == '+' || c == '.' || c == ':'

/-- Is there room for the number in 128 bits, with or without a sign? -/
def isInRange (i : Int) : Bool :=
  -0x80000000000000000000000000000000 ≤ i && i < 0x100000000000000000000000000000000

/-- The value of a word. -/
def ofWord? (word : List Char) : Option Toml :=
  if word = "true".toList then some (.boolean true)
  else if word = "false".toList then some (.boolean false)
  else match integer? word with
    | some i => if isInRange i then some (.integer i) else none
    | none => if isFloat word then some .float else if isMoment word then some .moment else none

/-- A word, to which after a date and a blank a time belongs. -/
def word (cs : List Char) : List Char × List Char :=
  let head := cs.takeWhile isWordChar
  let rest := cs.dropWhile isWordChar
  match skipDate? head, rest with
  | some [], ' ' :: c :: more =>
    if c.isDigit then
      (head ++ ' ' :: (c :: more).takeWhile isWordChar, (c :: more).dropWhile isWordChar)
    else (head, rest)
  | _, _ => (head, rest)

/-! ## Values -/

mutual

/-- A value in which at most `levels` brackets are open within each other; `fuel` bounds the
steps. -/
def value : Nat → Nat → Reader Toml
  | 0, _, _ => none
  | fuel + 1, levels, cs =>
    match cs, levels with
    | '"' :: _, _ | '\'' :: _, _ => (string cs).map fun (s, cs) => (.string s, cs)
    | '[' :: _, 0 | '{' :: _, 0 => none
    | '[' :: cs, levels + 1 => (items fuel levels cs).map fun (js, cs) => (.array js, cs)
    | '{' :: cs, levels + 1 =>
      (members fuel levels [] cs).map fun (entries, cs) => (.table .inline entries, cs)
    | cs, _ =>
      let (head, rest) := word cs
      (ofWord? head).map (·, rest)

/-- The items of an array and its closing bracket, with lines and comments among them. -/
def items : Nat → Nat → Reader (List Toml)
  | 0, _, _ => none
  | fuel + 1, levels, cs =>
    match skipLines (cs.length + 1) cs with
    | ']' :: cs => some ([], cs)
    | cs => do
      let (item, cs) ← value fuel levels cs
      match skipLines (cs.length + 1) cs with
      | ',' :: cs =>
        let (rest, cs) ← items fuel levels cs
        return (item :: rest, cs)
      | ']' :: cs => return ([item], cs)
      | _ => none

/-- The members of an inline table and its closing brace, with lines and comments among them. -/
def members : Nat → Nat → Entries → Reader Entries
  | 0, _, _, _ => none
  | fuel + 1, levels, entries, cs =>
    match skipLines (cs.length + 1) cs with
    | '}' :: cs => some (entries, cs)
    | cs => do
      let (path, cs) ← keys cs
      match skipLines (cs.length + 1) cs with
      | '=' :: cs =>
        let (v, cs) ← value fuel levels (skipLines (cs.length + 1) cs)
        let entries ← entries.addDotted v path
        match skipLines (cs.length + 1) cs with
        | ',' :: cs => members fuel levels entries cs
        | '}' :: cs => some (entries, cs)
        | _ => none
      | _ => none

end

/-! ## Documents -/

/-- A document read so far: all its entries, and the header that is open. -/
structure Progress where
  entries : Entries
  header : List String

/-- One line without its end: a header, a key with its value, or nothing. -/
def line (doc : Progress) (cs : List Char) : Option (Progress × List Char) :=
  match cs with
  | '[' :: '[' :: cs => do
    let (path, cs) ← keys cs
    match cs with
    | ']' :: ']' :: cs =>
      let entries ← doc.entries.modifyAt (·.openTables (path.getLast?.getD "")) path.dropLast
      return (⟨entries, path⟩, cs)
    | _ => none
  | '[' :: cs => do
    let (path, cs) ← keys cs
    match cs with
    | ']' :: cs =>
      let entries ← doc.entries.modifyAt (·.openTable (path.getLast?.getD "")) path.dropLast
      return (⟨entries, path⟩, cs)
    | _ => none
  | [] | '#' :: _ | '\n' :: _ | '\r' :: _ => some (doc, cs)
  | cs => do
    let (path, cs) ← keys cs
    match cs with
    | '=' :: cs =>
      let (v, cs) ← value (2 * cs.length + 2) limit (skipBlanks cs)
      let entries ← doc.entries.modifyAt (·.addDotted v path) doc.header
      return (⟨entries, doc.header⟩, cs)
    | _ => none

/-- All the lines of a document. -/
def lines : Nat → Progress → List Char → Option Entries
  | 0, _, _ => none
  | fuel + 1, doc, cs => do
    let (doc, cs) ← line doc (skipBlanks cs)
    match skipComment (skipBlanks cs) with
    | [] => some doc.entries
    | cs => lines fuel doc (← lineEnd? cs)

end Reader

/-- The table that a document is. -/
def read? (text : String) : Option Entries :=
  let cs := match text.toList with
    | '\uFEFF' :: cs => cs
    | cs => cs
  Reader.lines (cs.length + 1) ⟨[], []⟩ cs

end SqlTree.Toml
