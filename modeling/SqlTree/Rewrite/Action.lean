import SqlTree.Rewrite.Rules

/-!
# Rules given as data

A rule can be described by what it does, instead of being programmed: put a fixed node in place, do
so only for nodes of a given text, put the context in place, refuse, check, negate, or do nothing.
-/

namespace SqlTree

/-- What a described rule does with a node. -/
inductive Action where
  | replace (node : Node)
  /-- Replaces nodes of the given text. -/
  | replaceText (text : String) (node : Node)
  /-- Puts the context in place, as a string. -/
  | context
  | refuse (reason : String)
  /-- Reports that nothing was expected. -/
  | unexpected
  /-- Fails unless the node fits the slot. -/
  | check (slot : Slot)
  /-- Negates the expression that the node has to be. -/
  | negate
  | keep

namespace Action

/-- The action as an enter rule; what only exit rules do leaves the node to be descended into. -/
def enterRule (a : Action) : EnterRule String := fun n context =>
  match a with
  | replace m => some m
  | replaceText text m => if n.text == text then some m else none
  | .context => some (.expression (.ofLiteral (.string context)))
  | _ => none

/-- The action as an exit rule. -/
def exitRule (a : Action) : ExitRule String := fun n context =>
  match a with
  | replace m => .ok m
  | replaceText text m => .ok (if n.text == text then m else n)
  | .context => .ok (.expression (.ofLiteral (.string context)))
  | refuse reason => .error (.invalidNode (.refused reason))
  | unexpected => .error (.unexpectedNode "Nothing" n.kind)
  | check slot => slot.check n
  | negate =>
    match n with
    | .expression e => .ok (.expression e.negation)
    | n => .error (.unexpectedNode Slot.expression.name n.kind)
  | keep => .ok n

/-- The rule for a kind and a phase. -/
def registration (a : Action) (phase : Phase) (kind : Kind) : Registration String :=
  match phase with
  | .enter => .enter kind a.enterRule
  | .exit => .exit kind a.exitRule

end Action

end SqlTree
