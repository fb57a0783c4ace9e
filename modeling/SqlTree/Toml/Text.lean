import SqlTree.Text.Hex

/-!
# Written TOML strings

A string is written in the plainest of the four forms that can hold it: double quotes when nothing
in it needs an escape, single quotes when that spares escapes, triple quotes when it has several
lines or quotes of both kinds, and escapes only where control characters force them.
-/

namespace SqlTree.Toml

/-- The longest run of a character. -/
def longestRun (c : Char) (cs : List Char) : Nat :=
  (cs.foldl (fun (longest, run) d =>
    let run := if d = c then run + 1 else 0
    (max longest run, run)) (0, 0)).1

/-- What decides how a string is written. -/
structure StringFeatures where
  /-- The longest runs of single and of double quotes. -/
  singles : Nat
  doubles : Nat
  backslash : Bool
  newline : Bool
  /-- A control character other than the tab and the line feed. -/
  control : Bool

def StringFeatures.of (cs : List Char) : StringFeatures where
  singles := longestRun '\'' cs
  doubles := longestRun '"' cs
  backslash := cs.contains '\\'
  newline := cs.contains '\n'
  control := cs.any fun c => (c.toNat < 0x20 && c != '\t' && c != '\n') || c.toNat == 0x7F

/-- A character that is not a double quote in a string with escapes. -/
def escapedChar (lines : Bool) (c : Char) : List Char :=
  match c with
  | '\x08' => ['\\', 'b']
  | '\t' => ['\\', 't']
  | '\n' => if lines then ['\n'] else ['\\', 'n']
  | '\x0c' => ['\\', 'f']
  | '\r' => ['\\', 'r']
  | '\\' => ['\\', '\\']
  | c =>
    if c.toNat < 0x20 || c.toNat == 0x7F then
      '\\' :: 'u' :: (Text.hexadecimal4 c.toNat).toList.map Char.toUpper
    else [c]

/-- The characters of a string with escapes. Of double quotes in a row `allowed` stand as they are,
then one is escaped and the count begins anew. -/
def escapedChars (lines : Bool) (allowed : Nat) : Nat → List Char → List Char
  | _, [] => []
  | run, '"' :: cs =>
    if run < allowed then '"' :: escapedChars lines allowed (run + 1) cs
    else '\\' :: '"' :: escapedChars lines allowed 0 cs
  | _, c :: cs => escapedChar lines c ++ escapedChars lines allowed 0 cs

/-- A string in double quotes. -/
def basicText (cs : List Char) : String :=
  "\"" ++ String.ofList (escapedChars false 0 0 cs) ++ "\""

/-- A string in single quotes, which has no escapes. -/
def literalText (cs : List Char) : String := "'" ++ String.ofList cs ++ "'"

/-- The line end after triple quotes, which is no part of the string. -/
def opening (newline : Bool) : String := if newline then "\n" else ""

def multiBasicText (newline : Bool) (cs : List Char) : String :=
  "\"\"\"" ++ opening newline ++ String.ofList (escapedChars true 2 0 cs) ++ "\"\"\""

def multiLiteralText (newline : Bool) (cs : List Char) : String :=
  "'''" ++ opening newline ++ String.ofList cs ++ "'''"

/-- The string in the plainest form that can hold it. -/
def stringText (s : String) : String :=
  let cs := s.toList
  let f := StringFeatures.of cs
  if !f.control && !f.backslash && f.doubles == 0 && !f.newline then basicText cs
  else if !f.control && f.singles == 0 && !f.newline then literalText cs
  else if !f.control && !f.backslash && f.doubles ≤ 2 then multiBasicText f.newline cs
  else if !f.control && f.singles ≤ 2 then multiLiteralText f.newline cs
  else if f.newline then multiBasicText true cs
  else basicText cs

end SqlTree.Toml
