import SqlTree.Rewrite

/-!
# Rewriting by rules

Rules are given for kinds of nodes. The enter rule of a kind may replace a node before anything in
it is looked at; the exit rule of a kind turns a node into another one after its children have been
rewritten. A rule given later takes the place of an earlier one of the same kind and phase. Nodes
that lie deeper than a limit and are not replaced end the rewrite.
-/

namespace SqlTree

/-- Replaces a node or leaves it. -/
abbrev EnterRule (γ : Type) := Node → γ → Option Node

/-- Turns a rebuilt node into another one, or fails. -/
abbrev ExitRule (γ : Type) := Node → γ → Except RewriteError Node

/-- At most one enter rule and one exit rule for every kind. -/
structure Rules (γ : Type) where
  enter : Kind → Option (EnterRule γ)
  exit : Kind → Option (ExitRule γ)

/-- A rule that is given for a kind. -/
inductive Registration (γ : Type) where
  | enter (kind : Kind) (rule : EnterRule γ)
  | exit (kind : Kind) (rule : ExitRule γ)

namespace Rules

variable {γ : Type}

def empty : Rules γ := ⟨fun _ => none, fun _ => none⟩

def onEnter (t : Rules γ) (kind : Kind) (rule : EnterRule γ) : Rules γ :=
  { t with enter := fun k => if k = kind then some rule else t.enter k }

def onExit (t : Rules γ) (kind : Kind) (rule : ExitRule γ) : Rules γ :=
  { t with exit := fun k => if k = kind then some rule else t.exit k }

/-- Adds a rule, and reports if it takes the place of another one. -/
def register (t : Rules γ) : Registration γ → Rules γ × List Event
  | .enter kind rule =>
    (t.onEnter kind rule, if (t.enter kind).isSome then [.overwritten .enter kind] else [])
  | .exit kind rule =>
    (t.onExit kind rule, if (t.exit kind).isSome then [.overwritten .exit kind] else [])

/-- The rules given one after the other, and the reports. -/
def ofList (registrations : List (Registration γ)) : Rules γ × Array Event :=
  registrations.foldl
    (fun (t, events) registration =>
      let (t, more) := t.register registration
      (t, events ++ more.toArray))
    (empty, #[])

/-- The kinds with an enter rule, in order. -/
def enterKinds (t : Rules γ) : List Kind := Kind.all.filter fun k => (t.enter k).isSome

/-- The kinds with an exit rule, in order. -/
def exitKinds (t : Rules γ) : List Kind := Kind.all.filter fun k => (t.exit k).isSome

def size (t : Rules γ) : Nat := t.enterKinds.length + t.exitKinds.length

def isEmpty (t : Rules γ) : Bool := t.size == 0

def hasRulesFor (t : Rules γ) (k : Kind) : Bool := (t.enter k).isSome || (t.exit k).isSome

def kindList (ks : List Kind) : String := "[" ++ ", ".intercalate (ks.map Kind.name) ++ "]"

/-- The kinds with rules. -/
def text (t : Rules γ) : String :=
  "RewriteRules \x7b enter: " ++ kindList t.enterKinds ++ ", exit: " ++ kindList t.exitKinds ++
    " \x7d"

/-- The rewriter that follows the rules; its data is the depth it has descended to. -/
def rewriter (t : Rules γ) (limit : Nat) (context : γ) : Rewriter Nat where
  around n descend := do
    let kind := n.kind
    if let some rule := t.enter kind then
      Rewrite.note (.asked .enter n)
      if let some replacement := rule n context then
        Rewrite.note (.answered .enter kind replacement.kind)
        return replacement
    let depth ← Rewrite.data
    if limit ≤ depth then
      Rewrite.note (.limitReached limit kind)
      throw (.depthLimitExceeded limit)
    Rewrite.setData (depth + 1)
    let outcome ← Rewrite.outcome descend
    Rewrite.setData ((← Rewrite.data) - 1)
    let rebuilt ← ofExcept outcome
    match t.exit kind with
    | none => return rebuilt
    | some rule =>
      Rewrite.note (.asked .exit rebuilt)
      let result ← ofExcept (rule rebuilt context)
      Rewrite.note (.answered .exit kind result.kind)
      return result

end Rules

end SqlTree
