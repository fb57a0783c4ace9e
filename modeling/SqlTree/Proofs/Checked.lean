import SqlTree.Codec.Scalar
import SqlTree.Proofs.Node.Validity

/-!
# What the checked constructors accept

Each checked constructor gives the one value that it is named for, at no known place, and gives it
exactly where its rule holds.
-/

namespace SqlTree

theorem Name.of_eq_ok {parts : List String} {n : Name} :
    of parts = .ok n ↔ n = ⟨parts⟩ ∧ Valid ⟨parts⟩ := by
  unfold of
  by_cases none_given : parts = []
  · rw [if_pos none_given]
    refine iff_of_false (fun h => nomatch h) ?_
    rintro ⟨rfl, valid⟩
    exact valid.1 none_given
  · rw [if_neg none_given]
    by_cases some_empty : parts.any (· == "") = true
    · rw [if_pos some_empty]
      refine iff_of_false (fun h => nomatch h) ?_
      rintro ⟨rfl, valid⟩
      obtain ⟨p, hp, empty⟩ := List.any_eq_true.mp some_empty
      exact valid.2 p hp (beq_iff_eq.mp empty)
    · rw [if_neg some_empty]
      constructor
      · intro h
        obtain rfl := Except.ok.inj h
        exact ⟨rfl, none_given, fun p hp empty =>
          some_empty (List.any_eq_true.mpr ⟨p, hp, beq_iff_eq.mpr empty⟩)⟩
      · rintro ⟨rfl, -⟩
        rfl

theorem SqlType.decimalOf_eq_ok {precision scale : UInt32} {t : SqlType} :
    decimalOf precision scale = .ok t ↔
      t = decimal precision scale ∧ Valid (decimal precision scale) := by
  unfold decimalOf
  by_cases zero : precision = 0
  · rw [if_pos zero]
    refine iff_of_false (fun h => nomatch h) ?_
    rintro ⟨rfl, valid⟩
    exact valid.1 zero
  · rw [if_neg zero]
    by_cases small : precision < scale
    · rw [if_pos small]
      refine iff_of_false (fun h => nomatch h) ?_
      rintro ⟨rfl, valid⟩
      exact UInt32.not_lt.mpr valid.2 small
    · rw [if_neg small]
      constructor
      · intro h
        obtain rfl := Except.ok.inj h
        exact ⟨rfl, zero, UInt32.not_lt.mp small⟩
      · rintro ⟨rfl, -⟩
        rfl

theorem Literal.decimalOf_eq_ok {text : String} {a : Literal} :
    decimalOf text = .ok a ↔ a = decimal text ∧ Valid (decimal text) := by
  unfold decimalOf
  by_cases proper : isDecimalText text = true
  · rw [if_pos proper]
    constructor
    · intro h
      obtain rfl := Except.ok.inj h
      exact ⟨rfl, proper⟩
    · rintro ⟨rfl, -⟩
      rfl
  · rw [if_neg proper]
    refine iff_of_false (fun h => nomatch h) ?_
    rintro ⟨rfl, valid⟩
    exact proper valid

theorem Literal.check_eq_ok {a a' : Literal} : check a = .ok a' ↔ a' = a ∧ a.Valid := by
  cases a with
  | decimal text => exact decimalOf_eq_ok
  | _ => exact ⟨fun h => ⟨(Except.ok.inj h).symm, trivial⟩, fun h => congrArg Except.ok h.1.symm⟩

theorem TableElement.of_eq_ok {role : Namespace} {name : String} {type : SqlType}
    {e : TableElement} :
    of role name type = .ok e ↔ e = ⟨.unknown, role, name, type⟩ ∧ name ≠ "" := by
  unfold of
  by_cases h : name = "" <;> simp [h, eq_comm]

theorem InList.of_eq_ok {values : List Expr} {xs : InList} :
    of values = .ok xs ↔ xs = ⟨.unknown, values⟩ ∧ values ≠ [] := by
  unfold of
  cases values <;> simp [eq_comm]

theorem Expr.fieldOf_eq_ok {base e : Expr} {name : String} :
    fieldOf base name = .ok e ↔ e = unary .unknown (.field name) base ∧ name ≠ "" := by
  unfold fieldOf
  by_cases h : name = "" <;> simp [h, eq_comm]

theorem Relation.aliasedOf_eq_ok {relation r : Relation} {newName : String} :
    aliasedOf relation newName = .ok r ↔ r = aliased .unknown relation newName ∧ newName ≠ "" := by
  unfold aliasedOf
  by_cases h : newName = "" <;> simp [h, eq_comm]

theorem GroupingElement.cubeOf_eq_ok {columns : List Expr} {g : GroupingElement} :
    cubeOf columns = .ok g ↔
      g = cube .unknown columns ∧ (GroupingSet.of columns).length ≤ cubeLimit := by
  unfold cubeOf cubeColumns
  dsimp only
  by_cases many : cubeLimit < (GroupingSet.of columns).length
  · rw [if_pos many]
    exact iff_of_false (fun h => nomatch h) fun h => Nat.not_lt.mpr h.2 many
  · rw [if_neg many]
    exact ⟨fun h => ⟨(Except.ok.inj h).symm, Nat.not_lt.mp many⟩, fun h => congrArg _ h.1.symm⟩

theorem Statement.connectorOf_eq_ok {name : String} {properties : Properties}
    {type : ConnectorType} {s : Statement} : connectorOf name properties type = .ok s ↔
      s = createConnector .unknown name properties type ∧ name ≠ "" := by
  unfold connectorOf
  by_cases h : name = "" <;> simp [h, eq_comm]

end SqlTree
