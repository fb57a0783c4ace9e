import SqlTree.Rewrite

/-!
# Rewriters for single kinds of nodes

Rewriters that treat one or two kinds of nodes in their own way and all others by default.
-/

namespace SqlTree.Rewriter

variable {σ : Type}

/-- Treats every node by default. -/
def identity : Rewriter σ := ⟨fun _ descend => descend⟩

/-- Rewrites a whole tree by default, in any context. -/
def rewriteByDefault {γ : Type} (root : Node) (_context : γ) : Rewrite σ Node :=
  identity.rewrite root

/-- Changes the values of literals. -/
def mapLiterals (f : Literal → Literal) : Rewriter σ where
  around n descend :=
    match n with
    | .expression (.literal l value) => return .expression (.literal l (f value))
    | _ => descend

/-- The literal with a string in upper case, as `upper` has it. -/
def upperString (upper : String → String) : Literal → Literal
  | .string s => .string (upper s)
  | value => value

/-- Turns string literals into upper case, as `upper` has it. -/
def upperStrings (upper : String → String) : Rewriter σ := mapLiterals (upperString upper)

/-- The text with its ASCII letters in upper case; all other letters stay. -/
def upperAscii (s : String) : String := String.ofList (s.toList.map Char.toUpper)

/-- Turns the ASCII letters of string literals into upper case. -/
def upperLiterals : Rewriter σ := upperStrings upperAscii

/-- Puts a number where all columns are selected, which is no item of a selection. -/
def brokenItems : Rewriter σ where
  around n descend :=
    match n with
    | .selectItem (.all ..) => return .expression (.ofLiteral (.integer 1))
    | _ => descend

/-- Replaces all literals but those in the arguments of calls. -/
def skipCalls : Rewriter σ where
  around n descend :=
    match n with
    | .expression (.call ..) => return n
    | .expression (.literal ..) => return .expression (.ofLiteral (.string "replaced"))
    | _ => descend

/-- Puts a part before the names of tables. -/
def qualifyTables (part : String) : Rewriter σ where
  around n descend :=
    match n with
    | .relation (.table l name) =>
      match Name.of (part :: name.parts) with
      | .ok name => return .relation (.table l name)
      | .error v => throw (.invalidNode v)
    | _ => descend

/-- Swaps the operands of comparisons and flips their operators. -/
def flipComparisons : Rewriter σ where
  around n descend :=
    match n with
    | .expression (.binary _ (.comparison _) _ _) => do
      match ← descend with
      | .expression (.binary l (.comparison op) a b) =>
        return .expression (.binary l (.comparison op.flip) b a)
      | m => return m
    | _ => descend

/-- Gives columns new names, numbered in the order in which they are met. -/
def numberColumns (start : String) : Rewriter Nat where
  around n descend :=
    match n with
    | .expression (.column ..) => do
      let count := (← Rewrite.data) + 1
      Rewrite.setData count
      return .expression (.ofColumn ⟨[start ++ toString count]⟩)
    | _ => descend

/-- Reports every node on the way in and on the way out. -/
def traced : Rewriter σ where
  around n descend := do
    Rewrite.note (.entered n.kind)
    let result ← descend
    Rewrite.note (.left result.kind)
    return result

end SqlTree.Rewriter
