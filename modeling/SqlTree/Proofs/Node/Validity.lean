import Mathlib.Data.List.Basic
import SqlTree.Rewrite

/-!
# Valid nodes

A node is valid when every rule of well-formedness holds at every depth of it: names and texts are
not empty where they must not be, types and decimals are proper, an `IN` list has a value, and a
`CUBE` has few enough distinct columns. This is what the checked constructors ensure.
-/

namespace SqlTree

/-! ## Expressions -/

def UnaryOperator.Valid : UnaryOperator → Prop
  | cast type => type.Valid
  | field name => name ≠ ""
  | _ => True

mutual

def Expr.Valid : Expr → Prop
  | .literal _ value => value.Valid
  | .column _ name => name.Valid
  | .unary _ op e => op.Valid ∧ e.Valid
  | .binary _ _ a b => a.Valid ∧ b.Valid
  | .between _ v a b => v.Valid ∧ a.Valid ∧ b.Valid
  | .isIn _ v xs => v.Valid ∧ xs.Valid
  | .call _ f xs => f.Valid ∧ Expr.ValidList xs
  | .case _ o bs e => Expr.ValidOption o ∧ Branch.ValidList bs ∧ Expr.ValidOption e
  | .list xs => xs.Valid
  | .branch b => b.Valid
termination_by structural e => e

def InList.Valid : InList → Prop
  | ⟨_, xs⟩ => xs ≠ [] ∧ Expr.ValidList xs
termination_by structural xs => xs

def Branch.Valid : Branch → Prop
  | ⟨_, c, r⟩ => c.Valid ∧ r.Valid
termination_by structural b => b

def Expr.ValidOption : Option Expr → Prop
  | none => True
  | some e => e.Valid
termination_by structural e => e

def Expr.ValidList : List Expr → Prop
  | [] => True
  | e :: es => e.Valid ∧ Expr.ValidList es
termination_by structural es => es

def Branch.ValidList : List Branch → Prop
  | [] => True
  | b :: bs => b.Valid ∧ Branch.ValidList bs
termination_by structural bs => bs

end

@[simp]
theorem Expr.validOption_iff {e? : Option Expr} : ValidOption e? ↔ ∀ e ∈ e?, e.Valid := by
  cases e? <;> simp [ValidOption]

@[simp]
theorem Expr.validList_iff {es : List Expr} : ValidList es ↔ ∀ e ∈ es, e.Valid := by
  induction es with
  | nil => simp [ValidList]
  | cons e es ih => simp [ValidList, ih]

@[simp]
theorem Branch.validList_iff {bs : List Branch} : ValidList bs ↔ ∀ b ∈ bs, b.Valid := by
  induction bs with
  | nil => simp [ValidList]
  | cons b bs ih => simp [ValidList, ih]

/-! ## Relations and queries -/

def JoinCriteria.Valid : JoinCriteria → Prop
  | on condition => condition.Valid

def Relation.Valid : Relation → Prop
  | table _ name => name.Valid
  | aliased _ relation newName => relation.Valid ∧ newName ≠ ""
  | join _ _ left right criteria _ => left.Valid ∧ right.Valid ∧ criteria.Valid

def SelectItem.Valid : SelectItem → Prop
  | single _ e _ => e.Valid
  | all _ qualifier? => ∀ n ∈ qualifier?, n.Valid

def Select.Valid (s : Select) : Prop := ∀ i ∈ s.items, i.Valid

def GroupingElement.Valid : GroupingElement → Prop
  | simple _ columns | rollup _ columns => ∀ c ∈ columns, c.Valid
  | cube _ columns => (GroupingSet.of columns).length ≤ cubeLimit ∧ ∀ c ∈ columns, c.Valid
  | sets _ ss => ∀ s ∈ ss, ∀ c ∈ s, c.Valid

def GroupBy.Valid (g : GroupBy) : Prop := ∀ e ∈ g.elements, e.Valid

structure Query.Valid (q : Query) : Prop where
  select : q.select.Valid
  source : q.source.Valid
  filter : ∀ e ∈ q.filter?, e.Valid
  groupBy : ∀ g ∈ q.groupBy?, g.Valid
  having : ∀ e ∈ q.having?, e.Valid

/-! ## Statements and nodes -/

mutual

def Statement.Valid : Statement → Prop
  | .several _ ss => Statement.ValidList ss
  | .create _ _ n es _ p => n.Valid ∧ (∀ e ∈ es, e.Valid) ∧ p.Valid
  | .createStreamAs _ n q _ p e? => n.Valid ∧ q.Valid ∧ p.Valid ∧ ∀ e ∈ e?, e.Valid
  | .createTableAs _ n q _ p => n.Valid ∧ q.Valid ∧ p.Valid
  | .insertInto _ t q e? => t.Valid ∧ q.Valid ∧ ∀ e ∈ e?, e.Valid
  | .dropTable _ n _ _ => n.Valid
  | .createConnector _ n p _ => n ≠ "" ∧ p.Valid
  | .query q => q.Valid
termination_by structural s => s

def Statement.ValidList : List Statement → Prop
  | [] => True
  | s :: ss => s.Valid ∧ Statement.ValidList ss
termination_by structural ss => ss

end

@[simp]
theorem Statement.validList_iff {ss : List Statement} : ValidList ss ↔ ∀ s ∈ ss, s.Valid := by
  induction ss with
  | nil => simp [ValidList]
  | cons s ss ih => simp [ValidList, ih]

/-- Every rule of well-formedness holds at the node and everywhere inside it. -/
def Node.Valid : Node → Prop
  | statement s => s.Valid
  | expression e => e.Valid
  | relation r => r.Valid
  | select s => s.Valid
  | selectItem i => i.Valid
  | groupBy g => g.Valid
  | groupingElement g => g.Valid
  | tableElement e => e.Valid
  | window _ | ksqlWindow _ | within _ => True

/-- A node passes when the columns of a `CUBE` are counted anew, if there are few of them. -/
theorem Node.recounted_of_few {n : Node} (h : ∀ l columns,
    n = .groupingElement (.cube l columns) →
      (GroupingSet.of columns).length ≤ GroupingElement.cubeLimit) : n.recounted = .ok n := by
  cases n with
  | groupingElement g =>
    cases g with
    | cube l columns =>
      have few : ¬ GroupingElement.cubeLimit < (GroupingSet.of columns).length :=
        Nat.not_lt.mpr (h l columns rfl)
      simp only [recounted, GroupingElement.cubeColumns, if_neg few]
    | _ => rfl
  | _ => rfl

theorem Node.Valid.recounted_eq {n : Node} (h : n.Valid) : n.recounted = .ok n := by
  refine recounted_of_few ?_
  rintro l columns rfl
  exact h.1

/-! ## Children of valid nodes -/

theorem Expr.Valid.child {e : Expr} (h : e.Valid) {c : Child} (hc : c ∈ e.children) :
    c.node.Valid := by
  cases e with
  | literal | column => exact absurd hc List.not_mem_nil
  | unary =>
    obtain rfl := List.mem_singleton.mp hc
    exact h.2
  | binary =>
    rcases List.mem_pair.mp hc with rfl | rfl
    · exact h.1
    · exact h.2
  | between =>
    rcases List.mem_cons.mp hc with rfl | hc
    · exact h.1
    · rcases List.mem_pair.mp hc with rfl | rfl
      · exact h.2.1
      · exact h.2.2
  | isIn =>
    rcases List.mem_pair.mp hc with rfl | rfl
    · exact h.1
    · exact h.2
  | call =>
    obtain ⟨e, he, rfl⟩ := List.mem_map.mp hc
    exact Expr.validList_iff.mp h.2 e he
  | case =>
    obtain ⟨ho, hbs, he⟩ := h
    simp only [children, List.mem_append, List.mem_map, Option.mem_toList] at hc
    rcases hc with (⟨e, hm, rfl⟩ | ⟨b, hm, rfl⟩) | ⟨e, hm, rfl⟩
    · exact Expr.validOption_iff.mp ho e hm
    · exact Branch.validList_iff.mp hbs b hm
    · exact Expr.validOption_iff.mp he e hm
  | list xs =>
    cases xs
    obtain ⟨e, he, rfl⟩ := List.mem_map.mp hc
    exact Expr.validList_iff.mp h.2 e he
  | branch b =>
    cases b
    rcases List.mem_pair.mp hc with rfl | rfl
    · exact h.1
    · exact h.2

theorem Query.Valid.child {q : Query} (h : q.Valid) {c : Child} (hc : c ∈ q.children) :
    c.node.Valid := by
  simp only [children, List.mem_append, List.mem_pair, List.mem_map, Option.mem_toList] at hc
  rcases hc with
    ((((rfl | rfl) | ⟨w, -, rfl⟩) | ⟨e, hm, rfl⟩) | ⟨g, hm, rfl⟩) | ⟨e, hm, rfl⟩
  · exact h.select
  · exact h.source
  · exact trivial
  · exact h.filter e hm
  · exact h.groupBy g hm
  · exact h.having e hm

theorem Statement.Valid.child {s : Statement} (h : s.Valid) {c : Child} (hc : c ∈ s.children) :
    c.node.Valid := by
  cases s with
  | several =>
    obtain ⟨s, hs, rfl⟩ := List.mem_map.mp hc
    exact Statement.validList_iff.mp h s hs
  | create =>
    obtain ⟨e, he, rfl⟩ := List.mem_map.mp hc
    exact h.2.1 e he
  | createStreamAs =>
    obtain ⟨-, hq, -, he⟩ := h
    rcases List.mem_cons.mp hc with rfl | hc
    · exact hq
    · obtain ⟨e, hm, rfl⟩ := List.mem_map.mp hc
      exact he e (Option.mem_toList.mp hm)
  | createTableAs =>
    obtain rfl := List.mem_singleton.mp hc
    exact h.2.1
  | insertInto =>
    obtain ⟨-, hq, he⟩ := h
    rcases List.mem_cons.mp hc with rfl | hc
    · exact hq
    · obtain ⟨e, hm, rfl⟩ := List.mem_map.mp hc
      exact he e (Option.mem_toList.mp hm)
  | dropTable | createConnector => exact absurd hc List.not_mem_nil
  | query => exact Query.Valid.child h hc

theorem Relation.Valid.child {r : Relation} (h : r.Valid) {c : Child} (hc : c ∈ r.children) :
    c.node.Valid := by
  cases r with
  | table => exact absurd hc List.not_mem_nil
  | aliased =>
    obtain rfl := List.mem_singleton.mp hc
    exact h.1
  | join =>
    simp only [children, List.mem_append, List.mem_pair, List.mem_map] at hc
    rcases hc with (rfl | rfl) | ⟨w, -, rfl⟩
    · exact h.1
    · exact h.2.1
    · exact trivial

theorem GroupingElement.Valid.child {g : GroupingElement} (h : g.Valid) {c : Child}
    (hc : c ∈ g.children) : c.node.Valid := by
  cases g with
  | simple | rollup =>
    obtain ⟨e, he, rfl⟩ := List.mem_map.mp hc
    exact h e he
  | cube =>
    obtain ⟨e, he, rfl⟩ := List.mem_map.mp hc
    exact h.2 e he
  | sets =>
    obtain ⟨e, he, rfl⟩ := List.mem_map.mp hc
    obtain ⟨s, hs, he⟩ := List.mem_flatten.mp he
    exact h s hs e he

/-- What stands in the slots of a valid node is valid. -/
theorem Node.Valid.child {n : Node} (h : n.Valid) {c : Child} (hc : c ∈ n.children) :
    c.node.Valid := by
  cases n with
  | statement => exact Statement.Valid.child h hc
  | expression => exact Expr.Valid.child h hc
  | relation => exact Relation.Valid.child h hc
  | groupingElement => exact GroupingElement.Valid.child h hc
  | select =>
    obtain ⟨i, hi, rfl⟩ := List.mem_map.mp hc
    exact h i hi
  | selectItem i =>
    cases i with
    | single =>
      obtain rfl := List.mem_singleton.mp hc
      exact h
    | all => exact absurd hc List.not_mem_nil
  | groupBy =>
    obtain ⟨g, hg, rfl⟩ := List.mem_map.mp hc
    exact h g hg
  | window =>
    obtain rfl := List.mem_singleton.mp hc
    exact trivial
  | ksqlWindow | within | tableElement => exact absurd hc List.not_mem_nil

end SqlTree
