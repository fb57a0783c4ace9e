import SqlTree.Node

/-!
# What a rewrite reports

A rewrite can fail in three ways, and it keeps a journal of what it does. The journal is read in two
ways: as log lines with their levels, and as a trace of the nodes that were entered, left or shown
to a rule.
-/

namespace SqlTree

/-- Why a rewrite failed. -/
inductive RewriteError where
  /-- A node stands where nodes of its kind must not stand. -/
  | unexpectedNode (expected : String) (actual : Kind)
  | depthLimitExceeded (limit : Nat)
  /-- A node was built that breaks a rule of well-formedness. -/
  | invalidNode (cause : Violation)
deriving DecidableEq, Repr

def RewriteError.message : RewriteError → String
  | unexpectedNode expected actual =>
    "重写结果类型不匹配: 期望 " ++ expected ++ ", 实际为 " ++ actual.name
  | depthLimitExceeded limit => "重写递归深度超过上限 " ++ toString limit
  | invalidNode cause => "重写生成了非法节点: " ++ cause.message

/-- A rule is asked before a node is descended into, or after it has been rebuilt. -/
inductive Phase where
  | enter | exit
deriving DecidableEq, Repr

/-- An entry of the journal. -/
inductive Event where
  | started (root : Kind)
  | finished (result : Kind)
  /-- A rule took the place of an earlier one. -/
  | overwritten (phase : Phase) (kind : Kind)
  /-- A rule was shown a node. -/
  | asked (phase : Phase) (node : Node)
  /-- A rule gave a node. -/
  | answered (phase : Phase) (kind result : Kind)
  | limitReached (limit : Nat) (kind : Kind)
  | entered (kind : Kind)
  | left (kind : Kind)
  /-- A matcher was shown an expression. -/
  | compared (expression : Expr)

namespace Event

/-- The event as a line of the log, if it is logged. -/
def logLine? : Event → Option String
  | started root => some ("DEBUG 开始重写, 根节点类型: " ++ root.name)
  | finished result => some ("DEBUG 重写完成, 根节点类型: " ++ result.name)
  | overwritten .enter kind => some ("WARN " ++ kind.name ++ " 的进入规则被替换")
  | overwritten .exit kind => some ("WARN " ++ kind.name ++ " 的退出规则被替换")
  | answered .enter kind result =>
    some ("TRACE 进入规则替换了 " ++ kind.name ++ " 节点, 新节点类型: " ++ result.name)
  | answered .exit kind result =>
    some ("TRACE 退出规则处理了 " ++ kind.name ++ " 节点, 新节点类型: " ++ result.name)
  | limitReached limit kind =>
    some ("WARN 重写深度达到上限 " ++ toString limit ++ ", 当前节点类型: " ++ kind.name)
  | asked .. | entered _ | left _ | compared _ => none

/-- The event as a line of the trace, if it is traced. -/
def traceLine? : Event → Option String
  | entered kind => some ("> " ++ kind.name)
  | left kind => some ("< " ++ kind.name)
  | asked .enter node => some ("enter " ++ node.kind.name ++ ": " ++ node.text)
  | asked .exit node => some ("exit " ++ node.kind.name ++ ": " ++ node.text)
  | _ => none

/-- The text of the expression that a matcher was shown. -/
def comparedText? : Event → Option String
  | compared e => some e.text
  | _ => none

end Event

end SqlTree
