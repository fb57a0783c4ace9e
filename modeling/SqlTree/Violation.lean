import SqlTree.Text.Quoted

/-!
# Violations

Why a tree is refused: one constructor for each rule that names, types, literals, nodes and
grouping sets have to obey, and the wording of each refusal.
-/

namespace SqlTree

/-- A broken rule of well-formedness. -/
inductive Violation where
  | emptyName
  | emptyNamePart (parts : List String)
  | zeroPrecision
  | scaleAbovePrecision (scale precision : UInt32)
  | malformedDecimal (text : String)
  | emptyInList
  | emptyFieldName
  | emptyAlias
  | emptyColumnName
  | emptyConnectorName
  | tooManyCubeColumns (count : Nat)
  | tooManyGroupingSets
  /-- A refusal that the caller words itself. -/
  | refused (reason : String)
deriving DecidableEq, Repr

namespace Violation

/-- What is wrong, without the heading. -/
def reason : Violation → String
  | emptyName => "qualified name 不能为空"
  | emptyNamePart parts => "qualified name 含有空的部分: " ++ Text.quotedList parts
  | zeroPrecision => "DECIMAL precision 必须大于 0"
  | scaleAbovePrecision scale precision =>
    "DECIMAL scale (" ++ toString scale ++ ") 不能大于 precision (" ++ toString precision ++ ")"
  | malformedDecimal text => "非法的 DECIMAL 字面量: '" ++ text ++ "'"
  | emptyInList => "IN 列表不能为空"
  | emptyFieldName => "字段名不能为空"
  | emptyAlias => "关系别名不能为空"
  | emptyColumnName => "列名不能为空"
  | emptyConnectorName => "连接器名称不能为空"
  | tooManyCubeColumns count => "CUBE 最多支持 16 个不同的列, 实际为 " ++ toString count
  | tooManyGroupingSets => "GROUP BY 展开的组合数超过上限 65536"
  | refused reason => reason

/-- The full message. -/
def message (v : Violation) : String := "非法参数: " ++ v.reason

end Violation

end SqlTree
