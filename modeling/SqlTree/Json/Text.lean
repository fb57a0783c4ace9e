import SqlTree.Json
import SqlTree.Text.Hex

/-!
# Written JSON

The shortest spelling of a value: no blanks, and in strings only the quote, the backslash and the
control characters below the blank are escaped.
-/

namespace SqlTree.Json

/-- How a character stands in a string. -/
def escaped (c : Char) : String :=
  match c with
  | '"' => "\\\""
  | '\\' => "\\\\"
  | '\x08' => "\\b"
  | '\x0c' => "\\f"
  | '\n' => "\\n"
  | '\r' => "\\r"
  | '\t' => "\\t"
  | c => if c.toNat < 0x20 then "\\u" ++ Text.hexadecimal4 c.toNat else c.toString

def stringText (s : String) : String := "\"" ++ String.join (s.toList.map escaped) ++ "\""

/-- A string with half a surrogate pair is written with such a half. -/
def wordText : JsonText → String
  | .plain s => stringText s
  | .unpaired => "\"\\ud800\""

mutual

/-- The text of a value; what is broken has none. -/
def text : Json → String
  | null => "null"
  | bool b => if b then "true" else "false"
  | number n => n.text
  | string s => wordText s
  | array items => "[" ++ ",".intercalate (itemTexts items) ++ "]"
  | object members => "\x7b" ++ ",".intercalate (memberTexts members) ++ "\x7d"
  | broken => ""
termination_by structural j => j

def itemTexts : List Json → List String
  | [] => []
  | j :: js => j.text :: itemTexts js
termination_by structural js => js

def memberTexts : List (JsonText × Json) → List String
  | [] => []
  | (name, j) :: ms => (wordText name ++ ":" ++ j.text) :: memberTexts ms
termination_by structural ms => ms

end

end SqlTree.Json
