/-!
# Delimited text

A text between two marks, in which every mark of its own is written twice, so that the text can hold
anything and its end can still be found.
-/

namespace SqlTree.Text

/-- The characters with every `mark` written twice. -/
def doubled (mark : Char) (cs : List Char) : List Char :=
  cs.flatMap fun c => if c = mark then [mark, mark] else [c]

/-- The text between two marks. -/
def delimited (mark : Char) (s : String) : String :=
  String.ofList (mark :: doubled mark s.toList ++ [mark])

end SqlTree.Text
