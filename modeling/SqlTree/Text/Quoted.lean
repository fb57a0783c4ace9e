import SqlTree.Text.Hex
import SqlTree.Text.Shown

/-!
# Quoted text

A text between double quotes on one line, so that blanks, quotes and invisible characters can be
told apart in a message. The quote, the backslash and the four usual control characters have short
escapes; any other character without a glyph is written as its code point in lower-case hexadecimal.
-/

namespace SqlTree.Text

/-- How one character stands between double quotes. -/
def quotedChar (c : Char) : String :=
  match c with
  | '\x00' => "\\0"
  | '\t' => "\\t"
  | '\n' => "\\n"
  | '\r' => "\\r"
  | '\\' => "\\\\"
  | '"' => "\\\""
  | c => if isShown c then c.toString else "\\u\x7b" ++ hexadecimal c.toNat ++ "\x7d"

/-- The text between double quotes. -/
def quoted (s : String) : String := "\"" ++ String.join (s.toList.map quotedChar) ++ "\""

/-- The texts, each quoted, as a bracketed list. -/
def quotedList (texts : List String) : String := "[" ++ ", ".intercalate (texts.map quoted) ++ "]"

end SqlTree.Text
