import SqlTree.Feed
import SqlTree.Violation

/-!
# Column types

The types a column may have. Arrays, maps and structs nest; a `DECIMAL` keeps its precision and
scale, and the precision is positive and no less than the scale.
-/

namespace SqlTree

mutual

/-- The type of a column. -/
inductive SqlType where
  | boolean
  | integer
  | bigint
  | double
  | string
  | decimal (precision scale : UInt32)
  | array (element : SqlType)
  /-- A map from strings. -/
  | map (value : SqlType)
  | struct (fields : List StructField)

/-- A named member of a struct. -/
structure StructField where
  name : String
  type : SqlType

end

instance : Inhabited SqlType := ⟨.boolean⟩

namespace SqlType

/-- The checked form of `decimal`. -/
def decimalOf (precision scale : UInt32) : Except Violation SqlType :=
  if precision = 0 then .error .zeroPrecision
  else if precision < scale then .error (.scaleAbovePrecision scale precision)
  else .ok (.decimal precision scale)

/-- Does the type hold no other type? -/
def isPrimitive : SqlType → Bool
  | array _ | map _ | struct _ => false
  | _ => true

mutual

def text : SqlType → String
  | boolean => "BOOLEAN"
  | integer => "INT"
  | bigint => "BIGINT"
  | double => "DOUBLE"
  | string => "STRING"
  | decimal precision scale =>
    "DECIMAL(" ++ toString precision ++ ", " ++ toString scale ++ ")"
  | array element => "ARRAY<" ++ element.text ++ ">"
  | map value => "MAP<STRING, " ++ value.text ++ ">"
  | struct fields => "STRUCT<" ++ ", ".intercalate (fieldTexts fields) ++ ">"
termination_by structural t => t

/-- The text of each field. -/
def fieldTexts : List StructField → List String
  | [] => []
  | ⟨name, type⟩ :: fields => (name ++ " " ++ type.text) :: fieldTexts fields
termination_by structural fields => fields

end

mutual

/-- Are the types the same? -/
def same : SqlType → SqlType → Bool
  | boolean, boolean | integer, integer | bigint, bigint | double, double | string, string => true
  | decimal p s, decimal p' s' => p == p' && s == s'
  | array t, array t' => t.same t'
  | map t, map t' => t.same t'
  | struct fs, struct fs' => sameFields fs fs'
  | _, _ => false
termination_by structural t => t

def sameFields : List StructField → List StructField → Bool
  | [], [] => true
  | ⟨n, t⟩ :: fs, ⟨n', t'⟩ :: fs' => n == n' && t.same t' && sameFields fs fs'
  | _, _ => false
termination_by structural fs => fs

end

instance : BEq SqlType := ⟨same⟩

mutual

def feed : SqlType → Feed
  | boolean => [.number 0]
  | integer => [.number 1]
  | bigint => [.number 2]
  | double => [.number 3]
  | string => [.number 4]
  | decimal precision scale => [.number 5, .number precision.toNat, .number scale.toNat]
  | array element => .number 6 :: element.feed
  | map value => .number 7 :: value.feed
  | struct fields => .number 8 :: .number fields.length :: feedFields fields
termination_by structural t => t

def feedFields : List StructField → Feed
  | [] => []
  | ⟨name, type⟩ :: fields => .text name :: (type.feed ++ feedFields fields)
termination_by structural fields => fields

end

mutual

/-- Every `DECIMAL` inside has a positive precision that bounds its scale. -/
def Valid : SqlType → Prop
  | decimal precision scale => precision ≠ 0 ∧ scale ≤ precision
  | array element => element.Valid
  | map value => value.Valid
  | struct fields => ValidFields fields
  | _ => True
termination_by structural t => t

def ValidFields : List StructField → Prop
  | [] => True
  | ⟨_, t⟩ :: fs => t.Valid ∧ ValidFields fs
termination_by structural fs => fs

end

end SqlType

end SqlTree
